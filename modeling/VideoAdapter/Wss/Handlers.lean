import VideoAdapter.Wss.PlayMngr

namespace VideoAdapter.Wss

open Adapter

-- `Reader::parse`: what it makes of a text, if it accepts it. Any value may be the root.
abbrev Reader := String → Option Json.Value

-- `find` and the two `substr` around what it found: the text before the first occurrence and the
-- text after it.
def splitAtFirst (pattern : List Char) : List Char → Option (List Char × List Char)
  | [] => if pattern = [] then some ([], []) else none
  | c :: rest =>
      if pattern.isPrefixOf (c :: rest) then some ([], (c :: rest).drop pattern.length)
      else (splitAtFirst pattern rest).map fun (before, after) => (c :: before, after)

-- `cmsid`, `devid` and `key` of a push URL
def checkPushParser (src : String) : Option (String × String × String) := do
  let (_, tmp) ← splitAtFirst "cmsid=".toList src.toList
  let (cmsid, tmp) ← splitAtFirst "&devid=".toList tmp
  let (devid, key) ← splitAtFirst "&key=".toList tmp
  return (String.ofList cmsid, String.ofList devid, String.ofList key)

namespace Service

-- `handle_request` with the text of the viewer
def handleCmdline (w : Service) (reader : Reader) (socketid : Int) (cmdline : String)
    (env : RequestEnv) : Option (Service × List Output) :=
  w.handleRequest socketid (reader cmdline) env

-- POST /hls
def handleHls (w : Service) (reader : Reader) (strraw : String) : Option (Service × List Output) :=
  match reader strraw with
  | none => some (w, [])
  | some value => do
      let stream ← value.member "stream"
      let token ← stream.asString
      w.notifyHls token

-- POST /check
def handlePushCheck (w : Service) (reader : Reader) (strraw : String) : Option String :=
  match reader strraw with
  | none => some "1"
  | some value => do
      let tcUrl ← value.member "tcUrl"
      let tcUrl ← tcUrl.asString
      return match checkPushParser tcUrl with
        | none => "1"
        | some (cmsid, devid, key) => AdapterServer.checkPush w.server cmsid devid key

end Service

namespace Json.Value

-- The roots whose members can be asked for.
def Indexable : Value → Prop
  | null => True
  | object _ => True
  | _ => False

-- The values that convert to a string.
def Textual : Value → Prop
  | null => True
  | string _ => True
  | boolean _ => True
  | _ => False

theorem member_isSome (value : Value) (name : String) :
    (value.member name).isSome ↔ value.Indexable := by
  cases value <;> simp [member, Indexable]

theorem asString_isSome (value : Value) : value.asString.isSome ↔ value.Textual := by
  cases value <;> simp [asString, Textual]

end Json.Value

namespace Connections

-- A null pointer is stored for the socket.
def NullAt (connections : Connections) (s : Int) : Prop := connections[s]? = some none

variable {connections after : Connections} {s : Int}

theorem update_isSome_iff (connections : Connections) (s : Int) (f : Connection → Connection) :
    (connections.update s f).isSome ↔ ¬ connections.NullAt s := by
  unfold update NullAt
  split <;> simp_all

theorem send_isSome_iff (connections : Connections) (s : Int) (data : Reply) :
    (connections.send s data).isSome ↔ ¬ connections.NullAt s := update_isSome_iff _ _ _

-- A write through a pointer makes no other pointer null.
theorem nullAt_update {f : Connection → Connection} (h : connections.update s f = some after)
    (t : Int) : after.NullAt t ↔ connections.NullAt t := by
  unfold update at h
  split at h
  · cases h
    rfl
  · cases h
  · rename_i c hs
    cases h
    by_cases ht : s = t
    · subst ht
      simp [NullAt, hs]
    · simp [NullAt, Std.ExtTreeMap.getElem?_insert, ht]

theorem getValue_isSome_iff (connections : Connections) (s : Int) (name : String) :
    (connections.getValue s name).isSome ↔ ¬ connections.NullAt s := by
  unfold getValue NullAt
  split <;> simp_all

end Connections

namespace Service

variable {w after : Service} {out : List Output}

theorem send_isSome_iff (w : Service) (s : Int) (data : Reply) :
    (w.send s data).isSome ↔ ¬ w.connections.NullAt s := by
  unfold send
  rw [Option.isSome_map]
  exact Connections.send_isSome_iff _ _ _

theorem nullAt_send {s : Int} {data : Reply} (h : w.send s data = some (after, out)) (t : Int) :
    after.connections.NullAt t ↔ w.connections.NullAt t := by
  obtain ⟨connections, hu, he⟩ := Option.map_eq_some_iff.mp h
  cases he
  exact Connections.nullAt_update hu t

theorem accept_isSome_iff (w : Service) (s : Int) (k : String) (resp : Reply) (tick : UInt64) :
    (w.accept s k resp tick).isSome ↔ ¬ w.connections.NullAt s := by
  constructor
  · intro ha hnull
    have hsend := (send_isSome_iff w s resp).not_left.mpr hnull
    simp [accept, Option.not_isSome_iff_eq_none.mp hsend] at ha
  · intro hnull
    obtain ⟨⟨mid, sent⟩, hsend⟩ := Option.isSome_iff_exists.mp ((send_isSome_iff w s resp).mpr hnull)
    have hmid := (nullAt_send hsend s).not.mpr hnull
    obtain ⟨c1, h1⟩ := Option.isSome_iff_exists.mp
      ((Connections.update_isSome_iff mid.connections s fun c => c.setValue "roomid" k).mpr hmid)
    have hc1 := (Connections.nullAt_update h1 s).not.mpr hmid
    obtain ⟨c2, h2⟩ := Option.isSome_iff_exists.mp
      ((Connections.update_isSome_iff c1 s fun c => { c with timestamp := tick }).mpr hc1)
    have hset : mid.connections.setValue s "roomid" k = some c1 := h1
    have hstamp : c1.updateTimestamp s tick = some c2 := h2
    simp [accept, hsend, hset, hstamp]

theorem heartbeat_isSome_iff (w : Service) (s : Int) (tick : UInt64) :
    (w.heartbeat s tick).isSome ↔ ¬ w.connections.NullAt s := by
  constructor
  · intro hb hnull
    have hstamp := (Connections.update_isSome_iff w.connections s
      fun c => { c with timestamp := tick }).not_left.mpr hnull
    have hnone : w.connections.updateTimestamp s tick = none := Option.not_isSome_iff_eq_none.mp hstamp
    simp [heartbeat, hnone] at hb
  · intro hnull
    obtain ⟨c1, h1⟩ := Option.isSome_iff_exists.mp
      ((Connections.update_isSome_iff w.connections s fun c => { c with timestamp := tick }).mpr hnull)
    have hc1 := (Connections.nullAt_update h1 s).not.mpr hnull
    obtain ⟨roomid, hr⟩ := Option.isSome_iff_exists.mp
      ((Connections.getValue_isSome_iff c1 s "roomid").mpr hc1)
    have hstamp : w.connections.updateTimestamp s tick = some c1 := h1
    simp only [heartbeat, hstamp, Option.bind_eq_bind, Option.bind_some, hr]
    exact (send_isSome_iff { w with connections := c1 } s _).mpr hc1

theorem startLiveroom_isSome_iff (w : Service) (s : Int) (c d : String) (env : RequestEnv) :
    (w.startLiveroom s c d env).isSome ↔ ¬ w.connections.NullAt s := by
  unfold startLiveroom
  dsimp only
  rw [Option.isSome_map]
  split
  · exact send_isSome_iff _ _ _
  · exact accept_isSome_iff _ _ _ _ _

-- Every device of the adapter that can be asked about is one that it has.
def Known (w : Service) (c d : String) : Prop :=
  ∀ pClient, w.server.getClient c = some pClient → pClient.devlist[d]?.isSome

theorem checkStatus_isSome_iff (w : Service) (c d : String) :
    (AdapterServer.checkStatus w.server c d).isSome ↔ w.Known c d := by
  unfold AdapterServer.checkStatus Known getState
  split
  · simp_all
  · simp_all

theorem joinLiveroom_isSome_iff (w : Service) (s : Int) (c d : String) (env : RequestEnv) :
    (w.joinLiveroom s c d env).isSome ↔ w.Known c d ∧ ¬ w.connections.NullAt s := by
  rw [← checkStatus_isSome_iff]
  unfold joinLiveroom
  cases hs : AdapterServer.checkStatus w.server c d with
  | none => simp
  | some ret =>
      dsimp only
      rw [Option.isSome_some, and_iff_right rfl]
      split_ifs with hoff hstart hplay
      · exact send_isSome_iff _ _ _
      · exact startLiveroom_isSome_iff _ _ _ _ _
      · split
        · exact accept_isSome_iff _ _ _ _ _
        · exact send_isSome_iff _ _ _
      · exact send_isSome_iff _ _ _

theorem quitLiveroom_isSome_iff (w : Service) (s : Int) (c d : String) (env : RequestEnv) :
    (w.quitLiveroom s c d env).isSome ↔ w.Known c d ∧ ¬ w.connections.NullAt s := by
  rw [← checkStatus_isSome_iff]
  unfold quitLiveroom
  cases hs : AdapterServer.checkStatus w.server c d with
  | none => simp
  | some ret =>
      dsimp only
      rw [Option.isSome_some, and_iff_right rfl]
      split_ifs with hplay
      · split
        · rename_i room hroom
          have hset := Connections.update_isSome_iff w.connections s fun c => c.setValue "roomid" ""
          change (w.connections.setValue s "roomid" "").isSome ↔ _ at hset
          cases hv : w.connections.setValue s "roomid" "" with
          | none =>
              rw [hv] at hset
              simpa using hset
          | some connections =>
              rw [Option.bind_some, send_isSome_iff]
              exact (Connections.nullAt_update hv s).not
        · exact send_isSome_iff _ _ _
      · exact send_isSome_iff _ _ _

theorem broadcast_isSome_iff (data : Reply) (users : List Int) (w : Service) :
    (broadcast data users w).isSome ↔ ∀ user ∈ users, ¬ w.connections.NullAt user := by
  induction users generalizing w with
  | nil => simp [broadcast]
  | cons user rest ih =>
      rw [List.forall_mem_cons, ← send_isSome_iff w user data]
      cases hs : w.send user data with
      | none => simp [broadcast, hs]
      | some pair =>
          obtain ⟨mid, sent⟩ := pair
          have hrest : (broadcast data rest mid).isSome ↔ ∀ t ∈ rest, ¬ w.connections.NullAt t := by
            rw [ih mid]
            exact forall₂_congr fun t _ => (nullAt_send hs t).not
          rw [← hrest]
          simp [broadcast, hs, Option.isSome_bind]

-- The users of the room that a token is found in have no null pointer.
def Announces (w : Service) (token : String) : Prop :=
  ∀ key p, (w.rooms.toList.find? fun (_, p) => p.token = token) = some (key, p) →
    ∀ user ∈ p.users, ¬ w.connections.NullAt user

theorem notifyHls_isSome_iff (w : Service) (token : String) :
    (w.notifyHls token).isSome ↔ w.Announces token := by
  unfold notifyHls Announces
  split
  · rename_i hnone
    simp [hnone]
  · rename_i key p hsome
    rw [broadcast_isSome_iff, hsome]
    simp

end Service

-- The text of a viewer gets an answer: it does not parse; or its root is null or an object and,
-- where all three members convert and ask for something, the sender has no null pointer and the
-- device of a registered adapter is one that it has.
def RequestReturns (w : Service) (socketid : Int) : Option Json.Value → Prop
  | none => True
  | some value => value.Indexable ∧
      ∀ cmd cmsid devid, decodeRequest (some value) = .fields cmd cmsid devid →
        (cmd = 100 ∨ cmd = 200 → w.Known cmsid devid) ∧
        (cmd = 100 ∨ cmd = 200 ∨ cmd = 300 → ¬ w.connections.NullAt socketid)

-- A body whose member `name` can be read as a string, which meets `accepts`.
def BodyReturns (name : String) (accepts : String → Prop) : Option Json.Value → Prop
  | none => True
  | some value => value.Indexable ∧
      ∀ item, value.member name = some item → item.Textual ∧
        ∀ text, item.asString = some text → accepts text

theorem decodeRequest_abort_iff (value : Json.Value) :
    decodeRequest (some value) = .abort ↔ ¬ value.Indexable := by
  unfold decodeRequest
  cases value with
  | null => simp [Json.Value.member, Json.Value.Indexable, Json.Value.asInt, Json.Value.asString]
  | object members =>
      simp only [Json.Value.member, Json.Value.Indexable, not_true_eq_false, iff_false]
      split <;> simp
  | int n => simp [Json.Value.member, Json.Value.Indexable]
  | uint n => simp [Json.Value.member, Json.Value.Indexable]
  | real x => simp [Json.Value.member, Json.Value.Indexable]
  | string s => simp [Json.Value.member, Json.Value.Indexable]
  | boolean b => simp [Json.Value.member, Json.Value.Indexable]
  | array items => simp [Json.Value.member, Json.Value.Indexable]

theorem handleRequest_isSome_iff (w : Service) (s : Int) (text : Option Json.Value)
    (env : Service.RequestEnv) : (w.handleRequest s text env).isSome ↔ RequestReturns w s text := by
  cases text with
  | none => simp [Service.handleRequest, decodeRequest, RequestReturns]
  | some value =>
      have habort := decodeRequest_abort_iff value
      simp only [Service.handleRequest, RequestReturns]
      cases hd : decodeRequest (some value) with
      | abort =>
          have hroot := habort.mp hd
          simp [hroot]
      | reject =>
          have hroot := not_not.mp (habort.not.mp (by simp [hd]))
          simp [hroot]
      | fields cmd cmsid devid =>
          have hroot := not_not.mp (habort.not.mp (by simp [hd]))
          have hall : (∀ cmd' cmsid' devid',
              Request.fields cmd cmsid devid = .fields cmd' cmsid' devid' →
                (cmd' = 100 ∨ cmd' = 200 → w.Known cmsid' devid') ∧
                (cmd' = 100 ∨ cmd' = 200 ∨ cmd' = 300 → ¬ w.connections.NullAt s)) ↔
              (cmd = 100 ∨ cmd = 200 → w.Known cmsid devid) ∧
                (cmd = 100 ∨ cmd = 200 ∨ cmd = 300 → ¬ w.connections.NullAt s) := by
            constructor
            · exact fun h => h cmd cmsid devid rfl
            · rintro h cmd' cmsid' devid' he
              cases he
              exact h
          rw [hall, and_iff_right hroot]
          dsimp only
          split_ifs with hjoin hquit hbeat
          · simp [hjoin, Service.joinLiveroom_isSome_iff]
          · simp [hquit, Service.quitLiveroom_isSome_iff]
          · simp [hbeat, Service.heartbeat_isSome_iff]
          · simp [hjoin, hquit, hbeat]

-- What a handler makes of a body is right where the member it reads is.
theorem bodyReturns_iff (value : Json.Value) (name : String) (accepts : String → Prop) :
    BodyReturns name accepts (some value) ↔
      ∃ text, (value.member name).bind Json.Value.asString = some text ∧ accepts text := by
  simp only [BodyReturns]
  rw [← Json.Value.member_isSome value name]
  cases hm : value.member name with
  | none => simp
  | some item =>
      have htext := Json.Value.asString_isSome item
      cases ha : item.asString with
      | none => simpa [ha] using htext
      | some text => simp [ha, htext.mp (by simp [ha])]

theorem handleHls_isSome_iff (w : Service) (reader : Reader) (strraw : String) :
    (w.handleHls reader strraw).isSome ↔ BodyReturns "stream" w.Announces (reader strraw) := by
  unfold Service.handleHls
  cases reader strraw with
  | none => simp [BodyReturns]
  | some value =>
      rw [bodyReturns_iff]
      simp only [Option.bind_eq_bind, ← Option.bind_assoc]
      cases hb : (value.member "stream").bind Json.Value.asString with
      | none => simp
      | some token => simp [Service.notifyHls_isSome_iff]

theorem handlePushCheck_isSome_iff (w : Service) (reader : Reader) (strraw : String) :
    (w.handlePushCheck reader strraw).isSome ↔
      BodyReturns "tcUrl" (fun _ => True) (reader strraw) := by
  unfold Service.handlePushCheck
  cases reader strraw with
  | none => simp [BodyReturns]
  | some value =>
      rw [bodyReturns_iff]
      simp only [Option.bind_eq_bind, ← Option.bind_assoc]
      cases hb : (value.member "tcUrl").bind Json.Value.asString with
      | none => simp
      | some tcUrl => simp

-- A reader of one text, an empty array.
def emptyArray : Reader := fun text => if text = "[]" then some (.array []) else none

end VideoAdapter.Wss
