import VideoAdapter.Wss.View.Lemmas

namespace VideoAdapter.Wss

open Adapter Lib

def joinAnswered (s : Int) (out : List Output) : Bool :=
  out.any fun
    | .reply s' data => s' = s ∧ (data.code = 101 ∨ data.code = 102)
    | _ => false

def timedOut (s : Int) (out : List Output) : Bool :=
  out.any fun
    | .timeout s' _ => s' = s
    | _ => false

-- Whether a socket watches a camera after a history: its last join for the pair was
-- answered 101 or 102, and it has since neither quit the pair nor timed out nor closed.
-- A socket whose entry an error path has removed is still open, and still counts.
def isViewer (s : Int) (c d : String) : History → Bool
  | [] => false
  | (event, out) :: earlier =>
      match event with
      | .established s' _ => if s' = s then false else isViewer s c d earlier
      | .closed s' _ => if s' = s then false else isViewer s c d earlier
      | .checkConnectionState _ _ => if timedOut s out then false else isViewer s c d earlier
      | .request s' text _ =>
          if s' = s ∧ decodeRequest text = .fields 100 c d then joinAnswered s out
          else if s' = s ∧ decodeRequest text = .fields 200 c d then false
          else isViewer s c d earlier
      | _ => isViewer s c d earlier

-- The two ways in which a viewer drops out of the count of its room do not happen:
-- a join that creates the room of a camera (the device is online but not pushing, and
-- starts) finds no other viewer of that camera, and a quit does not take the viewer out
-- of the room of another camera with the same concatenated id.
def keepsViewers (history : History) (w : Service) : Event → Prop
  | .request s text env =>
      (∀ c d, decodeRequest text = .fields 100 c d →
        AdapterServer.checkStatus w.server c d = some 102 →
        (AdapterServer.notifyStartPush w.server c d env.start).1.ret = 0 →
        ∀ s', isViewer s' c d history = true → s' = s) ∧
      (∀ c d, decodeRequest text = .fields 200 c d →
        AdapterServer.checkStatus w.server c d = some 200 →
        ∀ room, w.rooms[c ++ d]? = some room →
        isViewer s room.cmsid room.devid history = true → room.cmsid = c ∧ room.devid = d)
  | _ => True

-- A viewer is counted in the room of its camera, whenever there is one.
def ViewersCounted (history : History) (v : View) : Prop :=
  ∀ s c d room, isViewer s c d history = true → v.rooms[c ++ d]? = some room →
    room.cmsid = c → room.devid = d → s ∈ room.users

theorem isViewer_of_other {s s' : Int} {c d c' d' : String} {text : Option Json.Value}
    {env : Service.RequestEnv} {out : List Output} {history : History} {cmd : Int}
    (ht : decodeRequest text = .fields cmd c' d') (hne : ¬(s = s' ∧ c = c' ∧ d = d'))
    (h : isViewer s c d ((.request s' text env, out) :: history) = true) :
    isViewer s c d history = true := by
  simp only [isViewer, ht, Request.fields.injEq] at h
  split at h
  · rename_i hj
    exact absurd ⟨hj.1.symm, hj.2.2.1.symm, hj.2.2.2.symm⟩ hne
  · split at h
    · cases h
    · exact h

theorem isViewer_quit {s : Int} {c d : String} {text : Option Json.Value}
    {env : Service.RequestEnv} {out : List Output} {history : History}
    (ht : decodeRequest text = .fields 200 c d) :
    isViewer s c d ((.request s text env, out) :: history) = false := by
  simp [isViewer, ht]

variable {history : History} {v after : View} {out : List Output} {text : Option Json.Value}
  {env : Service.RequestEnv} {s : Int} {c d : String}

-- Without the room of the request's key, only the other rooms matter.
theorem ViewersCounted.erase (hv : ViewersCounted history v) {cmd : Int}
    (ht : decodeRequest text = .fields cmd c d)
    (hrooms : ∀ x, after.rooms[x]? = if c ++ d = x then none else v.rooms[x]?) :
    ViewersCounted ((.request s text env, out) :: history) after := by
  intro s' c' d' room hview hr hc hd
  rw [hrooms] at hr
  split at hr
  · cases hr
  · rename_i hne
    have hpair : ¬(s' = s ∧ c' = c ∧ d' = d) := by
      rintro ⟨-, rfl, rfl⟩
      exact hne rfl
    exact hv s' c' d' room (isViewer_of_other ht hpair hview) hr hc hd

theorem rooms_of_none {k : String} (hr : v.rooms[k]? = none) (x : String) :
    v.rooms[x]? = if k = x then none else v.rooms[x]? := by
  split
  · rename_i hk
    rw [← hk]
    exact hr
  · rfl

theorem ViewersCounted.join (hv : ViewersCounted history v)
    (ht : decodeRequest text = .fields 100 c d)
    (hguard : v.status c d = some 102 → (startResult v c d env).1.ret = 0 →
      ∀ s', isViewer s' c d history = true → s' = s)
    (h : JoinView v s c d env out after) :
    ViewersCounted ((.request s text env, out) :: history) after := by
  cases h with
  | offline hs => exact hv.erase ht fun x => by simp
  | failed hs hr => exact hv.erase ht fun x => by simp
  | started hs hr =>
      intro s' c' d' room hview hroom hc hd
      simp only [View.rooms_withServer, View.rooms_assign, View.rooms_setRoom] at hroom
      split at hroom
      · cases hroom
        change c = c' at hc
        change d = d' at hd
        subst hc hd
        by_cases hss : s' = s
        · simp [newRoom, hss]
        · have hold := isViewer_of_other ht (fun hp => hss hp.1) hview
          exact absurd (hguard hs hr s' hold) hss
      · rename_i hne
        have hpair : ¬(s' = s ∧ c' = c ∧ d' = d) := by
          rintro ⟨-, rfl, rfl⟩
          exact hne rfl
        exact hv s' c' d' room (isViewer_of_other ht hpair hview) hroom hc hd
  | joined room hs hr =>
      intro s' c' d' room' hview hroom hc hd
      simp only [View.rooms_assign, View.rooms_setRoom] at hroom
      by_cases hpair : s' = s ∧ c' = c ∧ d' = d
      · obtain ⟨rfl, rfl, rfl⟩ := hpair
        simp only [ite_true, Option.some.injEq] at hroom
        simp [← hroom]
      · have hold := isViewer_of_other ht hpair hview
        split at hroom
        · rename_i hk
          cases hroom
          rw [LiveRoom.mem_join]
          exact .inl (hv s' c' d' room hold (hk ▸ hr) (by simpa using hc) (by simpa using hd))
        · exact hv s' c' d' room' hold hroom hc hd
  | unexpected hs hr => exact hv.erase ht (rooms_of_none hr)

theorem ViewersCounted.quit (hv : ViewersCounted history v)
    (ht : decodeRequest text = .fields 200 c d)
    (hguard : v.status c d = some 200 → ∀ room, v.rooms[c ++ d]? = some room →
      isViewer s room.cmsid room.devid history = true → room.cmsid = c ∧ room.devid = d)
    (h : QuitView v s c d env after) :
    ViewersCounted ((.request s text env, out) :: history) after := by
  cases h with
  | left room hs hr =>
      intro s' c' d' room' hview hroom hc hd
      simp only [View.rooms_assign, View.rooms_setRoom] at hroom
      have hpair : ¬(s' = s ∧ c' = c ∧ d' = d) := by
        rintro ⟨rfl, rfl, rfl⟩
        rw [isViewer_quit ht] at hview
        cases hview
      have hold := isViewer_of_other ht hpair hview
      split at hroom
      · rename_i hk
        cases hroom
        rw [LiveRoom.quit_cmsid] at hc
        rw [LiveRoom.quit_devid] at hd
        refine LiveRoom.mem_quit_of_ne _ ?_ (hv s' c' d' room hold (hk ▸ hr) hc hd)
        rintro rfl
        obtain ⟨hcc, hdd⟩ := hguard hs room hr (by rw [hc, hd]; exact hold)
        exact hpair ⟨rfl, hc ▸ hcc, hd ▸ hdd⟩
      · exact hv s' c' d' room' hold hroom hc hd
  | noRoom hs hr => exact hv.erase ht (rooms_of_none hr)
  | notPlaying n hs hn => exact hv.erase ht fun x => by simp

-- A step that keeps every viewer a viewer or takes it out of the viewers, and every room
-- with its camera and the users who are still viewers, keeps the count.
theorem ViewersCounted.mono {event : Event} (hv : ViewersCounted history v)
    (hview : ∀ s c d, isViewer s c d ((event, out) :: history) = true →
      isViewer s c d history = true)
    (hrooms : ∀ (x : String) (last : LiveRoom), after.rooms[x]? = some last →
      ∃ room : LiveRoom, v.rooms[x]? = some room ∧
        Thinned room last fun s => ∃ c d, isViewer s c d ((event, out) :: history) = true) :
    ViewersCounted ((event, out) :: history) after := by
  intro s c d last h hl hc hd
  obtain ⟨room, hr, ht⟩ := hrooms _ last hl
  refine ht.keep s (hv s c d room (hview s c d h) hr ?_ ?_) ⟨c, d, h⟩
  · exact ht.cmsid.symm.trans hc
  · exact ht.devid.symm.trans hd

theorem timedOut_of_mem {k : String} (h : Output.timeout s k ∈ out) : timedOut s out = true := by
  simp only [timedOut, List.any_eq_true]
  exact ⟨_, h, by simp⟩

theorem ViewersCounted.step {w : Service} {event : Event}
    (hv : ViewersCounted history w.view) (hguard : keepsViewers history w event)
    (h : ViewStep w.view event out after) : ViewersCounted ((event, out) :: history) after := by
  have same : ∀ (x : String) (last : LiveRoom), w.view.rooms[x]? = some last →
      ∃ room : LiveRoom, w.view.rooms[x]? = some room ∧
        Thinned room last fun s => ∃ c d, isViewer s c d ((event, out) :: history) = true :=
    fun x last hl => ⟨last, hl, .refl _ _⟩
  cases h with
  | established s tick => exact hv.mono (fun s' c d h => by simp_all [isViewer]) same
  | writeable s whole written => exact hv.mono (fun s' c d h => by simpa [isViewer] using h) same
  | rejected s text env ht => exact hv.mono (fun s' c d h => by simpa [isViewer, ht] using h) same
  | unknown s text env cmd c d ht hj hq hb =>
      exact hv.mono (fun s' c d h => by simpa [isViewer, ht, hj, hq] using h) same
  | join s text env c d ht h => exact hv.join ht (hguard.1 c d ht) h
  | quit s text env c d ht h => exact hv.quit ht (hguard.2 c d ht) h
  | heartbeat s text env c d ht =>
      exact hv.mono (fun s' c d h => by simpa [isViewer, ht] using h) same
  | closed s tick =>
      refine hv.mono (fun s' c d h => by simp_all [isViewer]) ?_
      intro x last hl
      obtain ⟨room, hr, ht⟩ := leave_thinned hl
      refine ⟨room, hr, ht.cmsid, ht.devid, ht.sub, fun y hy hk => ht.keep y hy ?_⟩
      rintro rfl
      obtain ⟨c, d, hk⟩ := hk
      simp [isViewer] at hk
  | timeouts cur tick h =>
      refine hv.mono (fun s' c d h => by simp_all [isViewer]) ?_
      intro x last hl
      obtain ⟨room, hr, ht⟩ := h.thinned hl
      refine ⟨room, hr, ht.cmsid, ht.devid, ht.sub, fun y hy hk => ht.keep y hy ?_⟩
      intro k hm
      obtain ⟨c, d, hk⟩ := hk
      simp [isViewer, timedOut_of_mem hm] at hk
  | sweep env h =>
      exact hv.mono (fun s' c d h => by simpa [isViewer] using h)
        fun x last hl => ⟨last, h.rooms hl, .refl _ _⟩
  | hls token replies h =>
      refine hv.mono (fun s' c d h => by simpa [isViewer] using h) ?_
      cases h with
      | unknown => exact same
      | ready k room hr =>
          intro x last hl
          rw [View.rooms_setRoom] at hl
          split at hl
          · rename_i hx
            cases hl
            exact ⟨room, hx ▸ hr, rfl, rfl, fun _ h => h, fun _ h _ => h⟩
          · exact same x last hl
  | adapter event srv frames h =>
      exact hv.mono (fun s' c d h => by simpa [isViewer] using h) same

-- `stop_play` is called in sweeps only, for a room without users under its own key.
theorem stopPlay_room (hv : RoomKeyed v) {event : Event} (h : ViewStep v event out after)
    (hs : Output.stopPlay c d ∈ out) :
    ∃ room : LiveRoom, v.rooms[c ++ d]? = some room ∧ room.users = [] ∧ room.cmsid = c ∧
      room.devid = d := by
  have hanswer : ∀ s data, Output.stopPlay c d ∉ v.answer s data := by
    intro s data hm
    unfold View.answer at hm
    split at hm <;> simp at hm
  cases h with
  | established s tick => simp at hs
  | writeable s whole written => simp at hs
  | rejected s text env ht => simp at hs
  | unknown s text env cmd c d ht hj hq hb => simp at hs
  | join s text env c d ht h => cases h <;> simp [hanswer] at hs
  | quit s text env c d ht h => exact absurd hs (hanswer s _)
  | heartbeat s text env c d ht =>
      unfold heartbeatOutput at hs
      split at hs <;> simp at hs
  | closed s tick => simp at hs
  | timeouts cur tick h => exact absurd hs (h.not_stopPlay _ _)
  | sweep env h =>
      obtain ⟨k, room, hr, hempty, rfl, rfl⟩ := h.stopPlay hs
      exact ⟨room, (hv k room hr).symm ▸ hr, hempty, rfl, rfl⟩
  | hls token replies h => simp at hs
  | adapter event srv frames h => simp at hs

-- In every run in which no join or quit drops a viewer from its room, a camera is
-- stopped only when nobody watches it.
theorem stopPlay_unwatched {final : Service} {event : Event}
    (run : Run step keepsViewers initial ((event, out) :: history) final)
    (hstop : Output.stopPlay c d ∈ out) (s : Int) : isViewer s c d history = false := by
  cases run with
  | next run hguard hs =>
      obtain ⟨⟨hkeyed, hcount⟩, hk⟩ :=
        view_invariant (fun history v => RoomKeyed v ∧ ViewersCounted history v)
          ⟨initial_roomKeyed, fun s c d room h => by simp [isViewer] at h⟩
          (fun history w event out after hinv hguard h =>
            ⟨h.roomKeyed hinv.1, hinv.2.step hguard h⟩) run
      obtain ⟨room, hr, hempty, hc, hd⟩ := stopPlay_room hkeyed (step_view hk hs).1 hstop
      by_contra hview
      have hm := hcount s c d room (by simpa using hview) hr hc hd
      simp [hempty] at hm

def stops (c d : String) (_ : History) (_ : Event) (out : List Output) (_ : Service) : Bool :=
  out.contains (.stopPlay c d)

-- A viewer joins and closes, and the next sweep stops the camera.
theorem stopPlay_unwatched_after_close :
    ∃ history event out final, Run step keepsViewers initial ((event, out) :: history) final ∧
      Output.stopPlay "A" "d" ∈ out ∧ isViewer 1 "A" "d" history = false := by
  have hg : Guarded step keepsViewers initial [] [login 7 "A" ["d"], report 7 "d" 1,
      .established 1 0, joinRequest 1 "A" "d" "t" 1, .closed 1 2, sweepAt 60003 true] := by
    refine .cons trivial fun _ _ _ => .cons trivial fun _ _ _ => .cons trivial fun _ _ _ =>
      .cons ?_ fun _ _ _ => .cons trivial fun _ _ _ => .cons trivial fun _ _ _ => trivial
    simp [keepsViewers, joinRequest, login, report, isViewer]
  obtain ⟨history, event, out, final, run, ht⟩ :=
    exists_last_of_ends step keepsViewers initial _ (stops "A" "d") hg (by decide +kernel)
  have hstop : Output.stopPlay "A" "d" ∈ out := by simpa [stops] using ht
  exact ⟨history, event, out, final, run, hstop, stopPlay_unwatched run hstop 1⟩

-- The first viewer watches on while the adapter reports the camera as not pushing. The
-- second join then replaces the room, and its quit leaves the new room empty.
theorem stopPlay_watched :
    ¬ ∀ history event out final, Run step free initial ((event, out) :: history) final →
      ∀ c d, Output.stopPlay c d ∈ out → ∀ s, isViewer s c d history = false := by
  intro hall
  obtain ⟨history, event, out, final, run, ht⟩ :=
    exists_last_of_ends step free initial
      [login 7 "A" ["d"], report 7 "d" 1, .established 1 0, .established 2 0,
        joinRequest 1 "A" "d" "t" 1, report 7 "d" 1, joinRequest 2 "A" "d" "u" 1,
        quitRequest 2 "A" "d" 2, sweepAt 60003 true]
      (fun history event out final =>
        stops "A" "d" history event out final && isViewer 1 "A" "d" history)
      (guarded_free ..) (by decide +kernel)
  simp only [stops, Bool.and_eq_true, List.contains_iff_mem] at ht
  simp [hall history event out final run "A" "d" ht.1 1] at ht

end VideoAdapter.Wss
