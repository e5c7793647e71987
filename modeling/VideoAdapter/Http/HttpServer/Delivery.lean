import VideoAdapter.Http.HttpServer

namespace VideoAdapter.Http

-- A response as it was answered, with what the socket has taken of it, and whether the last call of
-- `send` took less than it was given.
structure Delivery where
  res : Response
  httpVersion : Str
  isKeepalive : Bool
  taken : Str := []
  short : Bool := false
deriving DecidableEq, Repr

def Delivery.text (delivery : Delivery) : Str :=
  delivery.res.genHead delivery.httpVersion delivery.isKeepalive ++ delivery.res.body

-- Nothing more is sent for the response. It is whole if its last bytes were all taken at once.
structure Delivery.Settled (delivery : Delivery) : Prop where
  prefix_text : delivery.taken <+: delivery.text
  whole_iff : delivery.taken = delivery.text ↔ delivery.short = false

namespace HttpEpollWatcher

variable {World Parser : Type*} (watcher : HttpEpollWatcher World Parser)

def sendTo (delivery : Delivery) (ctx : HttpContext Parser) (input : HttpInput World) : Delivery :=
  { delivery with
    taken := delivery.taken ++ taken ctx input
    short := decide ((taken ctx input).length < (offered ctx).length) }

def begin (ctx : HttpContext Parser) : Delivery where
  res := ctx.res
  httpVersion := ctx.req.line.httpVersion
  isKeepalive := isKeepalive ctx.req

-- The first call of `on_writeable` for a response makes its text, and the others go on with it.
def deliver (deliveries : List Delivery) (ctx : HttpContext Parser) (input : HttpInput World) :
    List Delivery :=
  if ctx.res.isWrited then
    match deliveries.getLast? with
    | none => deliveries
    | some last => deliveries.dropLast ++ [sendTo last ctx input]
  else deliveries ++ [sendTo (begin ctx) ctx input]

-- A connection and the responses that were sent on it.
structure Record (World Parser : Type*) where
  session : Session (HttpContext Parser)
  deliveries : List Delivery

def deliveriesAfter (deliveries : List Delivery) :
    Session (HttpContext Parser) → Call (HttpInput World) → List Delivery
  | .live .writing ctx, .onWriteable input _ => deliver deliveries ctx input
  | _, _ => deliveries

def Record.next (record : Record World Parser) (call : Call (HttpInput World)) :
    Option (Record World Parser) :=
  (record.session.next watcher.epollSocketWatcher call).map fun session =>
    { session := session, deliveries := deliveriesAfter record.deliveries record.session call }

def record (calls : List (Call (HttpInput World))) : Option (Record World Parser) :=
  calls.foldlM (Record.next watcher) ⟨.absent, []⟩

-- The record is beside the connection: there is one for every session.
theorem record_session (calls : List (Call (HttpInput World))) :
    (record watcher calls).map Record.session = Session.follow watcher.epollSocketWatcher calls := by
  have hfold : ∀ start : Record World Parser,
      (calls.foldlM (Record.next watcher) start).map Record.session =
        calls.foldlM (Session.next watcher.epollSocketWatcher) start.session := by
    induction calls with
    | nil => intro start; rfl
    | cons call rest ih =>
        intro start
        rw [List.foldlM_cons, List.foldlM_cons]
        cases hnext : start.session.next watcher.epollSocketWatcher call with
        | none =>
            have hnone : Record.next watcher start call = none := by
              rw [Record.next, hnext]
              rfl
            rw [hnone]
            rfl
        | some session =>
            have hsome : ∃ later, Record.next watcher start call = some later ∧
                later.session = session := by
              rw [Record.next, hnext]
              exact ⟨_, rfl, rfl⟩
            obtain ⟨later, hlater, rfl⟩ := hsome
            rw [hlater]
            exact ih later
  exact hfold ⟨.absent, []⟩

section Write

variable {ctx : HttpContext Parser} (input : HttpInput World) {text : Str} {k : Nat}

-- The response is read up to its byte `k`.
def ReadTo (ctx : HttpContext Parser) (text : Str) (k : Nat) : Prop :=
  (written ctx).resBytes = { bytes := text, pos := k } ∧ k ≤ text.length

theorem isWrited_written (ctx : HttpContext Parser) : (written ctx).isWrited = true := by
  unfold written
  split
  · assumption
  · rfl

theorem offered_eq (h : ReadTo ctx text k) : offered ctx = (text.drop k).take SS_WRITE_BUFFER_SIZE := by
  rw [offered, Response.readsome, h.1]
  rfl

theorem length_offered (h : ReadTo ctx text k) :
    (offered ctx).length = min SS_WRITE_BUFFER_SIZE (text.length - k) := by
  rw [offered_eq h, List.length_take, List.length_drop]

theorem taken_begins (ctx : HttpContext Parser) (input : HttpInput World) :
    taken ctx input <+: offered ctx := List.take_prefix _ _

theorem resBytes_readsome (h : ReadTo ctx text k) :
    ((written ctx).readsome SS_WRITE_BUFFER_SIZE).1.resBytes =
      { bytes := text
        pos := k + (offered ctx).length
        eofbit := decide ((offered ctx).length < SS_WRITE_BUFFER_SIZE)
        failbit := decide ((offered ctx).length < SS_WRITE_BUFFER_SIZE) } := by
  rw [offered_eq h, Response.readsome, h.1]
  rfl

theorem ret_readsome (h : ReadTo ctx text k) :
    ((written ctx).readsome SS_WRITE_BUFFER_SIZE).2.2 =
      if (offered ctx).length < SS_WRITE_BUFFER_SIZE then 0 else 1 := by
  have hbytes := congrArg StringStream.eofbit (resBytes_readsome h)
  change (if ((written ctx).readsome SS_WRITE_BUFFER_SIZE).1.resBytes.eofbit = true then (0 : Int)
    else 1) = _
  rw [hbytes]
  simp only [decide_eq_true_eq]

theorem rollback_resBytes {res : Response} {pos num : Nat} (h : res.resBytes = { bytes := text, pos := pos })
    (hnum : num ≤ pos) (hpos : pos ≤ text.length) (hsmall : text.length < 2 ^ 31) :
    (res.rollback num).1 = { res with resBytes := { bytes := text, pos := pos - num } } := by
  have hcast : Lib.toInt (pos : Int) = pos := Lib.toInt_of_small (by omega) (by omega)
  have hseek : ({ bytes := text, pos := pos } : StringStream).seekg ((pos : Int) - num) =
      { bytes := text, pos := pos - num } := by
    have hnat : ((pos : Int) - num).toNat = pos - num := by omega
    have hinside : 0 ≤ (pos : Int) - num ∧ (pos : Int) - num ≤ text.length := by omega
    rw [StringStream.seekg, if_neg (by exact Bool.false_ne_true), if_pos (by exact hinside), hnat]
  rw [Response.rollback, h]
  change ({ res with resBytes :=
    ({ bytes := text, pos := pos } : StringStream).seekg (Lib.toInt (pos : Int) - num) } : Response) = _
  rw [hcast, hseek]

-- A call of `on_writeable` behind which there are more bytes, from the first that was not taken on.
theorem onWriteable_more (h : ReadTo ctx text k) (hsmall : text.length < 2 ^ 31)
    (hmore : SS_WRITE_BUFFER_SIZE ≤ text.length - k) (hsend : input.send ≠ none) :
    ∃ res,
      watcher.onWriteable ctx input = ({ ctx with res := res }, .writeConnContinue) ∧
      res.isWrited = true ∧
      res.resBytes = { bytes := text, pos := k + (taken ctx input).length } := by
  obtain ⟨n, hn⟩ := Option.ne_none_iff_exists'.mp hsend
  have hlength : (offered ctx).length = SS_WRITE_BUFFER_SIZE := by
    rw [length_offered h]
    omega
  have hbytes := resBytes_readsome h
  have hret := ret_readsome h
  have hend := h.2
  rw [hlength] at hbytes hret
  rw [if_neg (Nat.lt_irrefl _)] at hret
  rw [decide_eq_false (Nat.lt_irrefl _)] at hbytes
  simp only [onWriteable, hn, hret, if_true]
  refine ⟨_, rfl, ?_⟩
  have htaken := (taken_begins ctx input).length_le
  by_cases hshort : (taken ctx input).length < (offered ctx).length
  · have hroll := rollback_resBytes hbytes
      (show (offered ctx).length - (taken ctx input).length ≤ k + SS_WRITE_BUFFER_SIZE by omega)
      (by omega) hsmall
    have hpos : k + SS_WRITE_BUFFER_SIZE - ((offered ctx).length - (taken ctx input).length) =
        k + (taken ctx input).length := by omega
    rw [if_pos hshort, hroll, hpos]
    exact ⟨isWrited_written ctx, rfl⟩
  · have hpos : SS_WRITE_BUFFER_SIZE = (taken ctx input).length := by omega
    rw [if_neg hshort, ← hpos]
    exact ⟨isWrited_written ctx, hbytes⟩

theorem onWriteable_failed (hsend : input.send = none) :
    (watcher.onWriteable ctx input).2 = .writeConnClose := by
  simp only [onWriteable, hsend]

-- A call of `on_writeable` that offers the end of the response. It is the last one for it.
theorem onWriteable_last (h : ReadTo ctx text k) (hlast : text.length - k < SS_WRITE_BUFFER_SIZE) :
    (isKeepalive ctx.req = true ∧ 0 < (taken ctx input).length ∧
        watcher.onWriteable ctx input = (watcher.newContext ctx.fd, .writeConnAlive)) ∨
      (¬ (isKeepalive ctx.req = true ∧ 0 < (taken ctx input).length) ∧
        (watcher.onWriteable ctx input).2 = .writeConnClose) := by
  have hlength : (offered ctx).length < SS_WRITE_BUFFER_SIZE := by
    rw [length_offered h]
    omega
  have hret := ret_readsome h
  rw [if_pos hlength] at hret
  cases hsend : input.send with
  | none =>
      have hnone : (taken ctx input).length = 0 := by simp [taken, hsend]
      exact .inr ⟨fun hkeep => by omega, onWriteable_failed watcher input hsend⟩
  | some n =>
      by_cases hkeep : isKeepalive ctx.req = true ∧ 0 < (taken ctx input).length
      · refine .inl ⟨hkeep.1, hkeep.2, ?_⟩
        simp only [onWriteable, hsend, hret]
        rw [if_neg (by decide), if_pos hkeep]
      · refine .inr ⟨hkeep, ?_⟩
        simp only [onWriteable, hsend, hret]
        rw [if_neg (by decide), if_neg hkeep]

variable {delivery : Delivery}

theorem append_taken_begins (h : ReadTo ctx delivery.text delivery.taken.length)
    (hbegins : delivery.taken <+: delivery.text) :
    (sendTo delivery ctx input).taken <+: delivery.text := by
  have hoffered : offered ctx <+: delivery.text.drop delivery.taken.length := by
    rw [offered_eq h]
    exact List.take_prefix _ _
  have hrest := (taken_begins ctx input).trans hoffered
  have hjoined := List.prefix_iff_eq_append.mp hbegins
  calc (sendTo delivery ctx input).taken
      = delivery.taken ++ taken ctx input := rfl
    _ <+: delivery.taken ++ delivery.text.drop delivery.taken.length :=
        (List.prefix_append_right_inj _).mpr hrest
    _ = delivery.text := hjoined

theorem settled_of_last (h : ReadTo ctx delivery.text delivery.taken.length)
    (hbegins : delivery.taken <+: delivery.text)
    (hlast : delivery.text.length - delivery.taken.length < SS_WRITE_BUFFER_SIZE) :
    (sendTo delivery ctx input).Settled := by
  have hoffered : offered ctx = delivery.text.drop delivery.taken.length := by
    rw [offered_eq h]
    apply List.take_of_length_le
    rw [List.length_drop]
    omega
  have hjoined := List.prefix_iff_eq_append.mp hbegins
  refine ⟨append_taken_begins input h hbegins, ?_⟩
  have htaken := taken_begins ctx input
  change delivery.taken ++ taken ctx input = delivery.text ↔
    decide ((taken ctx input).length < (offered ctx).length) = false
  rw [decide_eq_false_iff_not, Nat.not_lt]
  constructor
  · intro hwhole
    have heq : taken ctx input = delivery.text.drop delivery.taken.length :=
      List.append_cancel_left (hwhole.trans hjoined.symm)
    rw [heq, hoffered]
  · intro hlength
    rw [htaken.eq_of_length_le hlength, hoffered, hjoined]

theorem settled_of_failed (h : ReadTo ctx delivery.text delivery.taken.length)
    (hbegins : delivery.taken <+: delivery.text)
    (hmore : SS_WRITE_BUFFER_SIZE ≤ delivery.text.length - delivery.taken.length)
    (hsend : input.send = none) : (sendTo delivery ctx input).Settled := by
  have hnone : taken ctx input = [] := by simp [taken, hsend]
  have hsize : 0 < SS_WRITE_BUFFER_SIZE := by decide
  have hlength := length_offered h
  refine ⟨append_taken_begins input h hbegins, ?_⟩
  change delivery.taken ++ taken ctx input = delivery.text ↔
    decide ((taken ctx input).length < (offered ctx).length) = false
  rw [hnone, List.append_nil, decide_eq_false_iff_not, List.length_nil]
  constructor
  · intro hwhole
    rw [hwhole] at hmore
    omega
  · intro hshort
    omega

end Write

section Sound

-- What holds between a connection and its record.
inductive Sound : Session (HttpContext Parser) → List Delivery → Prop where
  | absent : Sound .absent []
  | reading {ctx : HttpContext Parser} {deliveries : List Delivery} (hfresh : ctx.res = {})
      (hall : ∀ delivery ∈ deliveries, delivery.Settled) : Sound (.live .reading ctx) deliveries
  | waiting {ctx : HttpContext Parser} {deliveries : List Delivery}
      (hunwritten : ctx.res.isWrited = false) (hbytes : ctx.res.resBytes = {})
      (hall : ∀ delivery ∈ deliveries, delivery.Settled) : Sound (.live .writing ctx) deliveries
  | sending {ctx : HttpContext Parser} {deliveries : List Delivery} {current : Delivery}
      (hwritten : ctx.res.isWrited = true) (hread : ReadTo ctx current.text current.taken.length)
      (hbegins : current.taken <+: current.text)
      (hall : ∀ delivery ∈ deliveries, delivery.Settled) :
      Sound (.live .writing ctx) (deliveries ++ [current])
  | closing {ctx : HttpContext Parser} {deliveries : List Delivery}
      (hall : ∀ delivery ∈ deliveries, delivery.Settled) : Sound (.live .closing ctx) deliveries
  | closed {deliveries : List Delivery}
      (hall : ∀ delivery ∈ deliveries, delivery.Settled) : Sound .closed deliveries

variable {watcher}

theorem handleRequest_keeps (world : World) (req : Request) (res : Response) :
    (watcher.handleRequest world req res).isWrited = res.isWrited ∧
      (watcher.handleRequest world req res).resBytes = res.resBytes := by
  unfold handleRequest
  dsimp only
  split
  · exact ⟨rfl, rfl⟩
  · split
    · exact ⟨rfl, rfl⟩
    · split
      · exact ⟨rfl, rfl⟩
      · rename_i handler _ _
        exact ⟨handler.isWrited _ _ _, handler.resBytes _ _ _⟩
      · exact ⟨rfl, rfl⟩

theorem onReadable_res (watcher : HttpEpollWatcher World Parser) {ctx : HttpContext Parser}
    (hfresh : ctx.res = {}) (input : HttpInput World) :
    if (watcher.onReadable ctx input).2 = .readOver then
      (watcher.onReadable ctx input).1.res.isWrited = false ∧
        (watcher.onReadable ctx input).1.res.resBytes = {}
    else (watcher.onReadable ctx input).1.res = {} := by
  unfold onReadable
  split
  · exact hfresh
  · exact hfresh
  · exact hfresh
  · dsimp only
    split
    · exact hfresh
    · split
      · exact hfresh
      · split
        · rw [hfresh]
          exact ⟨rfl, rfl⟩
        · rw [hfresh]
          exact handleRequest_keeps _ _ _

theorem texts_deliver (deliveries : List Delivery) (ctx : HttpContext Parser) (input : HttpInput World) :
    deliveries.map Delivery.text <+: (deliver deliveries ctx input).map Delivery.text := by
  unfold deliver
  split
  · split
    · exact List.prefix_refl _
    · rename_i last hlast
      rw [List.map_append, List.map_singleton]
      change _ <+: deliveries.dropLast.map Delivery.text ++ [last.text]
      obtain ⟨front, hfront⟩ := List.getLast?_eq_some_iff.mp hlast
      subst hfront
      simp
  · simp

theorem texts_deliveriesAfter (deliveries : List Delivery) (session : Session (HttpContext Parser))
    (call : Call (HttpInput World)) :
    deliveries.map Delivery.text <+: (deliveriesAfter deliveries session call).map Delivery.text := by
  unfold deliveriesAfter
  split
  · exact texts_deliver _ _ _
  · exact List.prefix_refl _

theorem deliver_unwritten {ctx : HttpContext Parser} (hunwritten : ctx.res.isWrited = false)
    (deliveries : List Delivery) (input : HttpInput World) :
    deliver deliveries ctx input =
      deliveries ++ [sendTo (begin ctx) ctx input] := by
  rw [deliver, hunwritten]
  rfl

theorem deliver_written {ctx : HttpContext Parser} (hwritten : ctx.res.isWrited = true)
    (deliveries : List Delivery) (current : Delivery) (input : HttpInput World) :
    deliver (deliveries ++ [current]) ctx input = deliveries ++ [sendTo current ctx input] := by
  rw [deliver, if_pos hwritten, List.getLast?_concat, List.dropLast_concat]

theorem readTo_unwritten {ctx : HttpContext Parser} (hunwritten : ctx.res.isWrited = false)
    (hbytes : ctx.res.resBytes = {}) : ReadTo ctx (begin ctx).text 0 := by
  have hwritten : written ctx =
      { ctx.res.genResponse ctx.req.line.httpVersion (isKeepalive ctx.req) with isWrited := true } := by
    rw [written, hunwritten]
    rfl
  refine ⟨?_, Nat.zero_le _⟩
  rw [hwritten]
  change ctx.res.resBytes.write (begin ctx).text = _
  rw [hbytes]
  rfl

-- One call of `on_writeable`, for a response of which a part was taken.
theorem sound_send {ctx : HttpContext Parser} {deliveries : List Delivery} {current : Delivery}
    (hread : ReadTo ctx current.text current.taken.length) (hbegins : current.taken <+: current.text)
    (hall : ∀ delivery ∈ deliveries, delivery.Settled) (hsmall : current.text.length < 2 ^ 31)
    (input : HttpInput World) :
    Sound (.live (watcher.onWriteable ctx input).2.phase (watcher.onWriteable ctx input).1)
      (deliveries ++ [sendTo current ctx input]) := by
  have hsettled : (sendTo current ctx input).Settled →
      ∀ delivery ∈ deliveries ++ [sendTo current ctx input], delivery.Settled := by
    intro hcurrent delivery hmem
    rcases List.mem_append.mp hmem with h | h
    · exact hall delivery h
    · rw [List.mem_singleton.mp h]
      exact hcurrent
  by_cases hmore : SS_WRITE_BUFFER_SIZE ≤ current.text.length - current.taken.length
  · by_cases hsend : input.send = none
    · rw [onWriteable_failed watcher input hsend]
      exact .closing (hsettled (settled_of_failed input hread hbegins hmore hsend))
    · obtain ⟨res, hret, hwritten, hbytes⟩ :=
        onWriteable_more watcher input hread hsmall hmore hsend
      have hpart := append_taken_begins input hread hbegins
      rw [hret]
      refine .sending hwritten ⟨?_, hpart.length_le⟩ hpart hall
      change (written { ctx with res := res }).resBytes = _
      rw [written, if_pos hwritten]
      change res.resBytes = { bytes := current.text, pos := (current.taken ++ taken ctx input).length }
      rw [hbytes, List.length_append]
  · have hlast := hsettled (settled_of_last input hread hbegins (Nat.lt_of_not_le hmore))
    rcases onWriteable_last watcher input hread (Nat.lt_of_not_le hmore) with
      ⟨-, -, hret⟩ | ⟨-, hret⟩
    · rw [hret]
      exact .reading rfl hlast
    · rw [hret]
      exact .closing hlast

theorem sound_step {session session' : Session (HttpContext Parser)} {deliveries : List Delivery}
    {call : Call (HttpInput World)} (h : Sound session deliveries)
    (hnext : session.next watcher.epollSocketWatcher call = some session')
    (hsmall : ∀ delivery ∈ deliveriesAfter deliveries session call, delivery.text.length < 2 ^ 31) :
    Sound session' (deliveriesAfter deliveries session call) := by
  cases h with
  | absent =>
      cases call with
      | onAccept fd =>
          cases hnext
          exact .reading rfl (by simp [deliveriesAfter])
      | _ => cases hnext
  | @reading ctx _ hfresh hall =>
      cases call with
      | onReadable input ret =>
          have hres := onReadable_res watcher hfresh input
          simp only [Session.next, Option.ite_none_right_eq_some, Option.some.injEq] at hnext
          obtain ⟨rfl, rfl⟩ := hnext
          change if (watcher.onReadable ctx input).2 = .readOver then _ else _ at hres
          change Sound (.live (watcher.onReadable ctx input).2.phase (watcher.onReadable ctx input).1) _
          cases hret : (watcher.onReadable ctx input).2 with
          | readOver =>
              rw [hret, if_pos rfl] at hres
              exact .waiting hres.1 hres.2 hall
          | readContinue =>
              rw [hret, if_neg (by decide)] at hres
              exact .reading hres hall
          | readClose => exact .closing hall
      | onClose =>
          cases hnext
          exact .closed hall
      | _ => cases hnext
  | @waiting ctx _ hunwritten hbytes hall =>
      cases call with
      | onWriteable input ret =>
          simp only [Session.next, Option.ite_none_right_eq_some, Option.some.injEq] at hnext
          obtain ⟨rfl, rfl⟩ := hnext
          rw [deliveriesAfter, deliver_unwritten hunwritten] at hsmall ⊢
          have htext : (begin ctx).text.length < 2 ^ 31 := hsmall (sendTo (begin ctx) ctx input) (by simp)
          exact sound_send (readTo_unwritten hunwritten hbytes) List.nil_prefix hall htext input
      | _ => cases hnext
  | @sending ctx _ current hwritten hread hbegins hall =>
      cases call with
      | onWriteable input ret =>
          simp only [Session.next, Option.ite_none_right_eq_some, Option.some.injEq] at hnext
          obtain ⟨rfl, rfl⟩ := hnext
          rw [deliveriesAfter, deliver_written hwritten] at hsmall ⊢
          have htext : current.text.length < 2 ^ 31 := hsmall (sendTo current ctx input) (by simp)
          exact sound_send hread hbegins hall htext input
      | _ => cases hnext
  | @closing ctx _ hall =>
      cases call with
      | onClose =>
          cases hnext
          exact .closed hall
      | _ => cases hnext
  | closed hall => cases call <;> cases hnext

theorem record_sound {calls : List (Call (HttpInput World))} {rec : Record World Parser}
    (h : record watcher calls = some rec)
    (hsmall : ∀ delivery ∈ rec.deliveries, delivery.text.length < 2 ^ 31) :
    Sound rec.session rec.deliveries := by
  induction calls using List.reverseRecOn generalizing rec with
  | nil =>
      cases h
      exact .absent
  | append_singleton calls call ih =>
      rw [record, List.foldlM_append] at h
      obtain ⟨before, hbefore, hlast⟩ := Option.bind_eq_some_iff.mp h
      simp only [List.foldlM_cons, List.foldlM_nil, bind_pure] at hlast
      obtain ⟨session, hsession, rfl⟩ := Option.map_eq_some_iff.mp hlast
      have htexts := texts_deliveriesAfter before.deliveries before.session call
      refine sound_step (ih hbefore fun delivery hmem => ?_) hsession hsmall
      obtain ⟨later, hlater, htext⟩ :=
        List.mem_map.mp (htexts.subset (List.mem_map_of_mem hmem))
      rw [← htext]
      exact hsmall later hlater

end Sound

end HttpEpollWatcher

end VideoAdapter.Http
