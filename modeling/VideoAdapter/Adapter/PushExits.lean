import VideoAdapter.Adapter.Answers
import VideoAdapter.Adapter.Frames
import VideoAdapter.Adapter.Push.Refinement

namespace VideoAdapter.Adapter

open Lib

-- What the world contributes to one `NotifyPush` while nothing else touches the devices: the draws,
-- whether the frame was sent whole, the ticks at which old messages are cleared, and for each round
-- of the wait that comes within the twelve seconds the messages that have arrived before it.
structure PushWorld where
  draws : Nat → Nat
  sent : Bool
  tick : MessageNode → UInt64
  rounds : List (List MessageNode)

def MessageNode.isFor (iType seqnum : Int) (pNode : MessageNode) : Bool :=
  pNode.iType = iType ∧ pNode.seqnum = seqnum

-- The loop of `WaitforResponse`. The round that finds the time over has no entry in the list.
def waitLoop (iType seqnum : Int) :
    List MessageNode → List (List MessageNode) → Option MessageNode × List MessageNode
  | msglist, [] => (none, msglist)
  | msglist, arrived :: rest =>
      let msglist := msglist ++ arrived
      match msglist.find? (MessageNode.isFor iType seqnum) with
      | some pNode => (some pNode, msglist.eraseP (MessageNode.isFor iType seqnum))
      | none => waitLoop iType seqnum msglist rest

-- The messages that `WaitforResponse` leaves in the list when it is called.
def PushWorld.recent (env : PushWorld) (msglist : List MessageNode) : List MessageNode :=
  msglist.filter fun pNode => !(env.tick pNode - pNode.timestamp > 6000)

namespace CMSClient

-- The structure behind `buf` with the message copied into it, or no message for the result -1. No
-- result where the copy leaves the structure.
def waitforResponse (client : CMSClient) (iType seqnum : Int) (buf : Bytes) (env : PushWorld) :
    Option (Option Bytes × CMSClient) :=
  let out := waitLoop iType seqnum (env.recent client.msglist) env.rounds
  let client := { client with msglist := out.2 }
  match out.1 with
  | none => some (none, client)
  | some pNode => (copyAt buf 0 pNode.buf).map fun buf => (some buf, client)

def notifyPush (client : CMSClient) (devid : String) (env : PushWorld) :
    Option (NotifyResult × CMSClient × List Bytes) :=
  match client.devlist[devid]? with
  | none => some ({ ret := -1, result := "camera id invalid!" }, client, [])
  | some pItem =>
      if pItem.state = 2 then some ({ ret := 0, result := "success!", token := pItem.token }, client, [])
      else do
        let push_key := generalToken env.draws 10
        let sendbuf ← (OutFrame.reqPush (idBytes devid) env.draws).build
        if !env.sent then return ({ ret := -1, result := "network error!", lost := true }, client, [])
        else
          let (answer, client) ←
            client.waitforResponse RESP_PUSH (generalSeqnumber env.draws) (zeros sizeofRespPush) env
          match answer with
          | none => return ({ ret := -1, result := "notify to start push time out!" }, client, [sendbuf])
          | some buf =>
              let resp := RespPush.decode buf
              if resp.result ≠ 100 then
                return ({ ret := -1, result := pushError resp.result }, client, [sendbuf])
              -- a token without a NUL is read on behind the structure
              else if 0 ∉ buf.drop 264 then none
              else
                let devlist := client.devlist.insert devid (pItem.pushing resp.token push_key)
                return ({ ret := 0, result := "success!", token := resp.token },
                  { client with devlist }, [sendbuf])

end CMSClient

-- The answer that comes within the wait: the first one to this request among the messages that were
-- there when the wait began and those that have arrived since.
def PushWorld.answer (env : PushWorld) (msglist : List MessageNode) : Option Bytes :=
  if env.rounds = [] then none
  else ((env.recent msglist ++ env.rounds.flatten).find?
    (MessageNode.isFor RESP_PUSH (generalSeqnumber env.draws))).map (·.buf)

-- The device was asked for a push, and this is what the adapter has answered.
def AnsweredWith (client : CMSClient) (devid : String) (env : PushWorld) (body : Bytes) : Prop :=
  ∃ p, client.devlist[devid]? = some p ∧ p.state ≠ 2 ∧ env.sent = true ∧
    env.answer client.msglist = some body

-- `token[20]`, behind `result` and `rtmpuri[260]`
def answerToken (body : Bytes) : String := cstrAt body 264 284

-- All or nothing: what a call returns, what it leaves of the devices and what it has sent.
structure AllOrNothing (client : CMSClient) (devid : String) (env : PushWorld) (res : NotifyResult)
    (client' : CMSClient) (frames : List Bytes) : Prop where
  ret_eq_zero_iff : res.ret = 0 ↔ (∃ p, client.devlist[devid]? = some p ∧ p.state = 2) ∨
    ∃ body, AnsweredWith client devid env body ∧ intAt body 0 = 100
  already : ∀ p, client.devlist[devid]? = some p → p.state = 2 →
    client'.devlist = client.devlist ∧ res.token = p.token
  answered : ∀ body, AnsweredWith client devid env body → intAt body 0 = 100 →
    ∃ p frame key, client.devlist[devid]? = some p ∧ frames = [frame] ∧
      (MsgHeader.decode frame).cmd = REQ_PUSH ∧
      fieldAt frame (sizeofMsgHeader + 20) 20 = idBytes key ∧ res.token = answerToken body ∧
      ∀ pid : String, client'.devlist[pid]? =
        if pid = devid then some { p with state := 2, token := answerToken body, key }
        else client.devlist[pid]?
  failed : res.ret ≠ 0 → client'.devlist = client.devlist

-- The text at `resp.token` ends in its field, or with the first byte of `resv`.
def TokenEnds (body : Bytes) : Prop := body.length ≤ 284 ∨ 0 ∈ (body.drop 264).take 21

-- The id with its NUL stays inside `ReqPush`, and the answer inside `RespPush`, a token that is
-- taken from it inside its field.
def PushFits (client : CMSClient) (devid : String) (env : PushWorld) : Prop :=
  ∀ p, client.devlist[devid]? = some p → p.state ≠ 2 →
    (cstring (idBytes devid)).length < sizeofReqPush ∧
      ∀ body, AnsweredWith client devid env body →
        body.length ≤ sizeofRespPush ∧ (intAt body 0 = 100 → TokenEnds body)

section Wait

variable {iType seqnum : Int}

-- The rounds look one after the other for what a single search in all messages finds.
theorem waitLoop_eq (msglist : List MessageNode) (rounds : List (List MessageNode)) :
    (waitLoop iType seqnum msglist rounds).1 =
      if rounds = [] then none
      else (msglist ++ rounds.flatten).find? (MessageNode.isFor iType seqnum) := by
  induction rounds generalizing msglist with
  | nil => rfl
  | cons arrived rest ih =>
      rw [if_neg (List.cons_ne_nil arrived rest), List.flatten_cons, ← List.append_assoc,
        List.find?_append, waitLoop]
      cases hfind : (msglist ++ arrived).find? (MessageNode.isFor iType seqnum) with
      | some pNode => rfl
      | none =>
          dsimp only
          rw [ih]
          split
          · rename_i hrest
            rw [hrest]
            rfl
          · rw [List.find?_append, hfind]

theorem answer_eq_waitLoop (env : PushWorld) (msglist : List MessageNode) :
    env.answer msglist = (waitLoop RESP_PUSH (generalSeqnumber env.draws) (env.recent msglist)
      env.rounds).1.map (·.buf) := by
  rw [waitLoop_eq, PushWorld.answer]
  split <;> rfl

-- What the wait gives the call, by the answer.
theorem waitforResponse_eq (client : CMSClient) (buf : Bytes) (env : PushWorld) :
    ∃ msglist, client.waitforResponse RESP_PUSH (generalSeqnumber env.draws) buf env =
      match env.answer client.msglist with
      | none => some (none, { client with msglist })
      | some body => (copyAt buf 0 body).map fun buf => (some buf, { client with msglist }) := by
  refine ⟨(waitLoop RESP_PUSH (generalSeqnumber env.draws) (env.recent client.msglist) env.rounds).2, ?_⟩
  rw [answer_eq_waitLoop, CMSClient.waitforResponse]
  cases (waitLoop RESP_PUSH (generalSeqnumber env.draws) (env.recent client.msglist) env.rounds).1 with
  | none => rfl
  | some pNode => rfl

end Wait

section Token

variable {body : Bytes}

theorem length_respStruct (h : body.length ≤ sizeofRespPush) : (respStruct body).length = sizeofRespPush := by
  rw [respStruct, List.length_append, length_zeros]
  omega

theorem copyAt_respStruct (h : body.length ≤ sizeofRespPush) :
    copyAt (zeros sizeofRespPush) 0 body = some (respStruct body) :=
  copyAt_zeros [] body h

-- The text of the field is the one that the structure gives, cut at the end of the field.
theorem answerToken_eq (body : Bytes) :
    answerToken body =
      String.ofList ((cstring (((respStruct body).drop 264).take 20)).map fun b => Char.ofNat b.toNat) := by
  have hcut : ((respStruct body).drop 264).take 20 = (body.take 284).drop 264 ++
      ((zeros (sizeofRespPush - body.length)).take (284 - body.length)).drop (264 - (body.take 284).length) := by
    rw [← List.drop_append, ← List.take_append, List.drop_take]
    rfl
  rw [hcut, zeros, List.take_replicate, List.drop_replicate]
  exact congrArg (fun text => String.ofList (text.map fun b => Char.ofNat b.toNat))
    (cstring_append_zeros _ _).symm

theorem tokenEnds_iff (body : Bytes) : TokenEnds body ↔ 0 ∈ ((respStruct body).drop 264).take 21 := by
  by_cases hshort : body.length ≤ 284
  · refine iff_of_true (.inl hshort) (List.mem_iff_getElem?.mpr ⟨20, ?_⟩)
    rw [List.getElem?_take_of_lt (by decide), List.getElem?_drop, respStruct,
      List.getElem?_append_right hshort, zeros, List.getElem?_replicate, if_pos]
    unfold sizeofRespPush
    omega
  · have hfront : ((respStruct body).drop 264).take 21 = (body.drop 264).take 21 := by
      rw [respStruct, List.drop_append_of_le_length (by omega), List.take_append_of_le_length]
      rw [List.length_drop]
      omega
    rw [hfront, TokenEnds, or_iff_right hshort]

-- The token that is read is that of the field exactly when its text ends there.
theorem token_eq_iff (h : body.length ≤ sizeofRespPush) :
    (0 ∈ (respStruct body).drop 264 ∧ (RespPush.decode body).token = answerToken body) ↔ TokenEnds body := by
  have hlength : ((respStruct body).drop 264).length = 84 := by
    rw [List.length_drop, length_respStruct h]
    rfl
  have hread : (RespPush.decode body).token =
      String.ofList ((cstring ((respStruct body).drop 264)).map fun b => Char.ofNat b.toNat) := by
    rw [← respPush_decode_struct h, RespPush.decode, cstrAt, List.take_of_length_le (length_respStruct h).le]
    rfl
  rw [tokenEnds_iff, hread, answerToken_eq]
  constructor
  · rintro ⟨-, heq⟩
    refine (length_cstring_take_eq_iff (by omega)).mp ?_
    simpa using (congrArg String.length heq).symm
  · intro hnul
    have hall := cstring_take hnul (show 20 ≤ 84 by decide)
    rw [List.take_of_length_le hlength.le] at hall
    exact ⟨List.mem_of_mem_take hnul, by rw [hall]⟩

end Token

section Exits

variable {client client' : CMSClient} {devid : String} {env : PushWorld} {p : DeviceNode}
  {res : NotifyResult} {frames : List Bytes} {frame body : Bytes}

-- An exit that fails, for a device that is not pushing and without a good answer.
theorem AllOrNothing.of_failed (hret : res.ret ≠ 0) (hdevlist : client'.devlist = client.devlist)
    (h2 : ∀ p, client.devlist[devid]? = some p → p.state ≠ 2)
    (h100 : ∀ body, AnsweredWith client devid env body → intAt body 0 ≠ 100) :
    AllOrNothing client devid env res client' frames where
  ret_eq_zero_iff := by
    refine iff_of_false hret ?_
    rintro (⟨p, hp, hpush⟩ | ⟨body, hbody, hgood⟩)
    · exact h2 p hp hpush
    · exact h100 body hbody hgood
  already := fun p hp hpush => absurd hpush (h2 p hp)
  answered := fun body hbody hgood => absurd hgood (h100 body hbody)
  failed := fun _ => hdevlist

theorem AllOrNothing.of_already (hp : client.devlist[devid]? = some p) (h2 : p.state = 2) :
    AllOrNothing client devid env { ret := 0, result := "success!", token := p.token } client [] where
  ret_eq_zero_iff := iff_of_true rfl (.inl ⟨p, hp, h2⟩)
  already := fun q hq _ => by
    obtain rfl := Option.some.inj (hp.symm.trans hq)
    exact ⟨rfl, rfl⟩
  answered := fun body ⟨q, hq, hne, _⟩ => by
    obtain rfl := Option.some.inj (hp.symm.trans hq)
    exact absurd h2 hne
  failed := fun hret => absurd rfl hret

theorem AllOrNothing.of_answered (hp : client.devlist[devid]? = some p)
    (hbody : AnsweredWith client devid env body) (h100 : intAt body 0 = 100)
    (hbuild : (OutFrame.reqPush (idBytes devid) env.draws).build = some frame)
    (hdevlist : client'.devlist =
      client.devlist.insert devid (p.pushing (answerToken body) (generalToken env.draws 10))) :
    AllOrNothing client devid env { ret := 0, result := "success!", token := answerToken body } client'
      [frame] where
  ret_eq_zero_iff := iff_of_true rfl (.inr ⟨body, hbody, h100⟩)
  already := fun q hq hpush => by
    obtain ⟨q', hq', hne, -⟩ := hbody
    obtain rfl := Option.some.inj (hq.symm.trans hq')
    exact absurd hpush hne
  answered := fun other ⟨_, _, _, _, hother⟩ _ => by
    obtain ⟨-, -, -, -, hanswer⟩ := hbody
    obtain rfl := Option.some.inj (hanswer.symm.trans hother)
    obtain ⟨hcmd, hkey⟩ := reqPush_key hbuild
    refine ⟨p, frame, generalToken env.draws 10, hp, rfl, hcmd, hkey, rfl, fun pid => ?_⟩
    rw [hdevlist, Std.ExtTreeMap.getElem?_insert]
    simp only [Std.compare_eq_iff_eq, eq_comm (a := devid)]
    rfl
  failed := fun hret => absurd rfl hret

-- The call for a device that is not pushing, once its request is built and sent.
theorem notifyPush_of_sent (hp : client.devlist[devid]? = some p) (h2 : p.state ≠ 2)
    (hbuild : (OutFrame.reqPush (idBytes devid) env.draws).build = some frame) (hsent : env.sent = true) :
    ∃ msglist, client.notifyPush devid env =
      match env.answer client.msglist with
      | none =>
          some ({ ret := -1, result := "notify to start push time out!" }, { client with msglist }, [frame])
      | some body =>
          if sizeofRespPush < body.length then none
          else if intAt body 0 ≠ 100 then
            some ({ ret := -1, result := pushError (intAt body 0) }, { client with msglist }, [frame])
          else if 0 ∉ (respStruct body).drop 264 then none
          else
            let token := (RespPush.decode body).token
            let devlist := client.devlist.insert devid (p.pushing token (generalToken env.draws 10))
            some ({ ret := 0, result := "success!", token }, { client with devlist, msglist }, [frame]) := by
  obtain ⟨msglist, hwait⟩ := waitforResponse_eq client (zeros sizeofRespPush) env
  refine ⟨msglist, ?_⟩
  unfold CMSClient.notifyPush
  simp only [hp, if_neg h2, hbuild, hsent, hwait, Option.bind_eq_bind, Option.bind_some, Bool.not_true,
    Bool.false_eq_true, if_false]
  cases env.answer client.msglist with
  | none => rfl
  | some body =>
      dsimp only
      by_cases hlong : sizeofRespPush < body.length
      · have hcopy : copyAt (zeros sizeofRespPush) 0 body = none := by
          refine if_neg ?_
          rw [length_zeros]
          omega
        rw [hcopy, if_pos hlong]
        rfl
      · rw [copyAt_respStruct (by omega), if_neg hlong]
        simp only [Option.map_some, Option.bind_some, respPush_decode_struct (Nat.le_of_not_lt hlong)]
        rfl

-- The exits behind the send.
theorem atomic_of_sent_iff (hp : client.devlist[devid]? = some p) (h2 : p.state ≠ 2)
    (hbuild : (OutFrame.reqPush (idBytes devid) env.draws).build = some frame) (hsent : env.sent = true) :
    (∃ res client' frames, client.notifyPush devid env = some (res, client', frames) ∧
      AllOrNothing client devid env res client' frames) ↔
      ∀ body, env.answer client.msglist = some body →
        body.length ≤ sizeofRespPush ∧ (intAt body 0 = 100 → TokenEnds body) := by
  obtain ⟨msglist, hcall⟩ := notifyPush_of_sent hp h2 hbuild hsent
  have hidle : ∀ q, client.devlist[devid]? = some q → q.state ≠ 2 := fun q hq => by
    obtain rfl := Option.some.inj (hp.symm.trans hq)
    exact h2
  rw [hcall]
  cases hanswer : env.answer client.msglist with
  | none =>
      refine iff_of_true ⟨_, _, _, rfl, .of_failed (by decide) rfl hidle ?_⟩ (by simp)
      rintro body ⟨-, -, -, -, hbody⟩
      rw [hanswer] at hbody
      cases hbody
  | some body =>
      have honly : ∀ other, AnsweredWith client devid env other → other = body := by
        rintro other ⟨-, -, -, -, hother⟩
        exact Option.some.inj (hother.symm.trans hanswer)
      simp only [Option.some.injEq, forall_eq']
      by_cases hlong : sizeofRespPush < body.length
      · rw [if_pos hlong]
        refine iff_of_false ?_ fun h => absurd h.1 (by omega)
        rintro ⟨_, _, _, h, -⟩
        cases h
      · have hle := Nat.le_of_not_lt hlong
        rw [if_neg hlong, ← token_eq_iff hle]
        by_cases h100 : intAt body 0 = 100
        · rw [if_neg (not_not.mpr h100)]
          by_cases hnul : 0 ∈ (respStruct body).drop 264
          · rw [if_neg (not_not.mpr hnul)]
            constructor
            · rintro ⟨res, client', frames, h, hall⟩
              cases h
              obtain ⟨-, -, -, -, -, -, -, htoken, -⟩ :=
                hall.answered body ⟨p, hp, h2, hsent, hanswer⟩ h100
              exact ⟨hle, fun _ => ⟨hnul, htoken⟩⟩
            · rintro ⟨-, hends⟩
              obtain ⟨-, htoken⟩ := hends h100
              rw [htoken]
              exact ⟨_, _, _, rfl, .of_answered hp ⟨p, hp, h2, hsent, hanswer⟩ h100 hbuild rfl⟩
          · rw [if_pos hnul]
            refine iff_of_false ?_ fun h => hnul (h.2 h100).1
            rintro ⟨_, _, _, h, -⟩
            cases h
        · rw [if_pos h100]
          refine iff_of_true ⟨_, _, _, rfl, .of_failed (show (-1 : Int) ≠ 0 by decide) rfl hidle ?_⟩
            ⟨hle, fun h => absurd h h100⟩
          intro other hother
          rw [honly other hother]
          exact h100

-- The exits for a device that is not pushing.
theorem atomic_of_idle_iff (hp : client.devlist[devid]? = some p) (h2 : p.state ≠ 2) :
    (∃ res client' frames, client.notifyPush devid env = some (res, client', frames) ∧
      AllOrNothing client devid env res client' frames) ↔
      (cstring (idBytes devid)).length < sizeofReqPush ∧ ∀ body, AnsweredWith client devid env body →
        body.length ≤ sizeofRespPush ∧ (intAt body 0 = 100 → TokenEnds body) := by
  rw [← @exists_build_reqPush_iff (idBytes devid) env.draws]
  cases hbuild : (OutFrame.reqPush (idBytes devid) env.draws).build with
  | none =>
      have hcall : client.notifyPush devid env = none := by
        simp [CMSClient.notifyPush, hp, h2, hbuild]
      rw [hcall]
      simp
  | some frame =>
      rw [and_iff_right ⟨frame, rfl⟩]
      by_cases hsent : env.sent = true
      · rw [atomic_of_sent_iff hp h2 hbuild hsent]
        exact forall_congr' fun body => imp_congr_left
          ⟨fun hbody => ⟨p, hp, h2, hsent, hbody⟩, fun ⟨_, _, _, _, hbody⟩ => hbody⟩
      · have hcall : client.notifyPush devid env =
            some ({ ret := -1, result := "network error!", lost := true }, client, []) := by
          simp [CMSClient.notifyPush, hp, h2, hbuild, hsent]
        have hnot : ∀ body, ¬ AnsweredWith client devid env body := fun _ ⟨_, _, _, hs, _⟩ => hsent hs
        refine iff_of_true ⟨_, _, _, hcall, .of_failed (by decide) rfl ?_ ?_⟩ ?_
        · intro q hq
          obtain rfl := Option.some.inj (hp.symm.trans hq)
          exact h2
        · exact fun body hbody => absurd hbody (hnot body)
        · exact fun body hbody => absurd hbody (hnot body)

-- What the call returns and leaves of the devices is what `notifyPush` says for the answer.
theorem notifyPush_eq_sequential (h : client.notifyPush devid env = some (res, client', frames)) :
    ∃ sent, notifyPush client.devlist devid ⟨env.draws, env.sent, env.answer client.msglist⟩ =
      (res, client'.devlist, sent) := by
  cases hp : client.devlist[devid]? with
  | none =>
      simp only [CMSClient.notifyPush, hp, Option.some.injEq, Prod.mk.injEq] at h
      obtain ⟨rfl, rfl, -⟩ := h
      exact ⟨[], by simp only [notifyPush, hp]⟩
  | some p =>
      by_cases h2 : p.state = 2
      · simp only [CMSClient.notifyPush, hp, if_pos h2, Option.some.injEq, Prod.mk.injEq] at h
        obtain ⟨rfl, rfl, -⟩ := h
        exact ⟨[], by simp only [notifyPush, hp, if_pos h2]⟩
      · cases hbuild : (OutFrame.reqPush (idBytes devid) env.draws).build with
        | none => simp [CMSClient.notifyPush, hp, h2, hbuild] at h
        | some frame =>
            by_cases hsent : env.sent = true
            · obtain ⟨msglist, hcall⟩ := notifyPush_of_sent hp h2 hbuild hsent
              rw [hcall] at h
              rw [hsent]
              cases hanswer : env.answer client.msglist with
              | none =>
                  rw [hanswer] at h
                  cases h
                  exact ⟨_, notifyPush_timeout hp h2 env.draws⟩
              | some body =>
                  rw [hanswer] at h
                  dsimp only at h
                  split at h
                  · cases h
                  · split at h
                    · rename_i h100
                      cases h
                      exact ⟨_, notifyPush_refused hp h2 env.draws h100⟩
                    · rename_i h100
                      split at h
                      · cases h
                      · cases h
                        exact ⟨_, notifyPush_answered hp h2 env.draws (not_not.mp h100)⟩
            · simp only [CMSClient.notifyPush, hp, if_neg h2, hbuild, hsent] at h
              cases h
              exact ⟨[], by simp [notifyPush, hp, h2, hsent]⟩

end Exits

def idleCamera : CMSClient :=
  { fd := 5, cmsid := "c", livecount := 0,
    devlist := (∅ : DevList).insert "d" (newCamera "d" "n" 1 "" "" "" ""), msglist := [] }

-- A push that goes well, but for a byte too many behind its answer.
def longAnswer : PushWorld where
  draws := fun _ => 0
  sent := true
  tick := fun _ => 0
  rounds := [[{ iType := RESP_PUSH, seqnum := 0, timestamp := 0, buf := RespPush.encode ⟨100, "t"⟩ ++ [0] }]]

end VideoAdapter.Adapter
