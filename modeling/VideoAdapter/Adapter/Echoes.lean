import VideoAdapter.Adapter.PushExits
import VideoAdapter.Adapter.Sessions

namespace VideoAdapter.Adapter

open Lib

-- The answer to a frame, with the sequence number of its header.
def Outgoing.answers (h : MsgHeader) : Outgoing → Prop
  | .respLogin seq _ _ _ _ => h.cmd = REQ_LOGIN ∧ seq = h.seq
  | .keepAliveRe seq => h.cmd = KEEP_ALIVE ∧ seq = h.seq
  | _ => False

-- The message that `WaitforResponse` takes when it asks for this command and number, and only then.
structure MessageNode.FiledAs (pNode : MessageNode) (h : MsgHeader) (body : Bytes) : Prop where
  buf_eq : pNode.buf = body
  isFor_iff : ∀ iType seqnum, pNode.isFor iType seqnum ↔ iType = h.cmd ∧ seqnum = h.seq

-- The bytes behind the header.
def frameBody (avail : Bytes) : Bytes :=
  (avail.drop sizeofMsgHeader).take (MsgHeader.decode (avail.take sizeofMsgHeader)).size.toNat

-- What a frame is answered with and what is made of it carry the number of its header. A message
-- needs a body: `InsertMsg` refuses a null pointer and the length 0, whatever the number.
structure SeqSurvives (srv : TcpServer) (fd : Int) (h : MsgHeader) (body : Bytes)
    (after : TcpServer) (out : List Sent) : Prop where
  answered : ∀ sent ∈ out, sent.1 = fd ∧ sent.2.answers h
  filed : ∀ pClient, srv.findClient fd = some pClient → h.cmd ≠ KEEP_ALIVE → h.cmd ≠ UPDATE_CHANGE →
    body ≠ [] → ∃ p pNode, after.findClient fd = some p ∧ p.msglist = pClient.msglist ++ [pNode] ∧
      pNode.FiledAs h body
  only : ∀ p ∈ after.clientlist, ∀ pNode ∈ p.msglist,
    (∃ pClient ∈ srv.clientlist, pNode ∈ pClient.msglist) ∨ pNode.FiledAs h body

-- A keep-alive without a body, with a number, from a client that is answered.
def LosesSeq (srv : TcpServer) (fd : Int) (h : MsgHeader) (env : LoginEnv) : Prop :=
  h.cmd = KEEP_ALIVE ∧ h.size = 0 ∧ h.seq ≠ 0 ∧ (srv.findClient fd).isSome ∧ env.sent = true

-- The call by the two branches of the task: without a body it passes on 0 for the number.
theorem readTask_call {avail rest : Bytes} {call : ReadCall}
    (h : readTask avail = some (some call, rest)) :
    call.cmd = (MsgHeader.decode (avail.take sizeofMsgHeader)).cmd ∧ call.buf = frameBody avail ∧
      ((MsgHeader.decode (avail.take sizeofMsgHeader)).size = 0 ∧ call.seq = 0 ∧ call.buf = [] ∨
        (MsgHeader.decode (avail.take sizeofMsgHeader)).size ≠ 0 ∧ call.buf ≠ [] ∧
          call.seq = (MsgHeader.decode (avail.take sizeofMsgHeader)).seq) := by
  have hrecv : ∀ (avail : Bytes) (n : Int), etRecv avail n = (avail.take n.toNat, avail.drop n.toNat) :=
    fun avail n => etRecv_eq avail n.toNat
  unfold readTask at h
  simp only [hrecv, Int.toNat_natCast] at h
  split at h
  · cases h
  split at h
  · cases h
  split at h
  · rename_i hsize
    cases h
    refine ⟨rfl, ?_, .inl ⟨hsize, rfl, rfl⟩⟩
    rw [frameBody, hsize]
    exact List.take_zero.symm
  · rename_i hsize
    split at h
    · cases h
    split at h
    · cases h
    · rename_i hlength
      cases h
      refine ⟨rfl, rfl, .inr ⟨hsize, fun hempty => hsize ?_, rfl⟩⟩
      exact (not_not.mp hlength).symm.trans (congrArg (fun buf : Bytes => (buf.length : Int)) hempty)

theorem filedAs_insert (h : MsgHeader) (body : Bytes) (tick : UInt64) :
    MessageNode.FiledAs { iType := h.cmd, seqnum := h.seq, timestamp := tick, buf := body } h body where
  buf_eq := rfl
  isFor_iff iType seqnum := by
    simp only [MessageNode.isFor, decide_eq_true_iff]
    exact and_congr eq_comm eq_comm

-- Every message was there before.
def NoneFiled (srv after : TcpServer) : Prop :=
  ∀ p ∈ after.clientlist, ∀ pNode ∈ p.msglist, ∃ pClient ∈ srv.clientlist, pNode ∈ pClient.msglist

section NoneFiled

variable {srv after last : TcpServer}

theorem NoneFiled.refl (srv : TcpServer) : NoneFiled srv srv := fun p hp _ hnode => ⟨p, hp, hnode⟩

theorem NoneFiled.trans (h : NoneFiled srv after) (h' : NoneFiled after last) : NoneFiled srv last := by
  intro p hp pNode hnode
  obtain ⟨q, hq, hnode⟩ := h' p hp pNode hnode
  exact h q hq pNode hnode

theorem noneFiled_delClient (srv : TcpServer) (fd : Int) : NoneFiled srv (srv.delClient fd) := by
  intro p hp pNode hnode
  rcases mem_updateFirst hp with hold | ⟨x, -, hx⟩
  · exact ⟨p, hold, hnode⟩
  · cases hx

theorem noneFiled_onClient (srv : TcpServer) (fd : Int) {f : CMSClient → CMSClient}
    (hf : ∀ p, (f p).msglist = p.msglist) : NoneFiled srv (srv.onClient fd f) := by
  intro p hp pNode hnode
  rcases mem_updateFirst hp with hold | ⟨x, hfind, hx⟩
  · exact ⟨p, hold, hnode⟩
  · obtain rfl := Option.some.inj hx
    rw [hf] at hnode
    exact ⟨x, List.mem_of_find?_eq_some hfind, hnode⟩

theorem noneFiled_addClient (srv : TcpServer) {client : CMSClient} (hempty : client.msglist = []) :
    NoneFiled srv (srv.addClient client) := by
  intro p hp pNode hnode
  rcases List.mem_append.mp hp with hold | hnew
  · exact ⟨p, hold, hnode⟩
  · rw [List.mem_singleton.mp hnew, hempty] at hnode
    cases hnode

theorem noneFiled_updateLivecount (srv : TcpServer) (fd seq : Int) (env : FrameEnv) :
    NoneFiled srv (updateLivecount srv fd seq env).1 := by
  have hlive : NoneFiled srv (srv.onClient fd fun p => { p with livecount := env.tick }) :=
    noneFiled_onClient srv fd fun _ => rfl
  unfold updateLivecount
  split
  · exact hlive
  · exact hlive.trans (noneFiled_delClient _ fd)

theorem noneFiled_login {fd seq : Int} {buf : Bytes} {env : LoginEnv} {out : List Sent} {cmd : Int}
    (hnew : srv.findClient fd = none)
    (h : srv.handlerReadDb fd cmd seq buf env = some (after, out)) : NoneFiled srv after := by
  rcases unknown_frame_cases hnew h with rfl | ⟨client, rfl, -, -, -, -, -, -, hempty⟩
  · exact .refl _
  · exact noneFiled_addClient srv hempty

end NoneFiled

section Answers

variable {srv after : TcpServer} {fd cmd seq : Int} {buf : Bytes} {env : FrameEnv} {out : List Sent}

theorem handleLoginEx_out (h : handleLoginEx srv fd seq buf env = (after, out)) :
    ∀ sent ∈ out, sent.1 = fd ∧
      ∃ result size resv pids, sent.2 = .respLogin seq result size resv pids := by
  unfold handleLoginEx at h
  dsimp only at h
  intro sent hsent
  split at h
  · cases h
    rw [List.mem_singleton.mp hsent]
    exact ⟨rfl, _, _, _, _, rfl⟩
  · cases h
    cases hsent

theorem updateLivecount_out (srv : TcpServer) (fd seq : Int) (env : FrameEnv) :
    (updateLivecount srv fd seq env).2 = if env.sent then [(fd, .keepAliveRe seq)] else [] := by
  unfold updateLivecount
  dsimp only
  split <;> rfl

theorem insertMsg_msglist (p : CMSClient) (tick : UInt64) (hbuf : buf ≠ []) :
    (p.insertMsg cmd seq buf tick).msglist =
      p.msglist ++ [{ iType := cmd, seqnum := seq, timestamp := tick, buf }] := by
  rw [CMSClient.insertMsg, if_neg hbuf]

theorem insertMsg_fd (p : CMSClient) (tick : UInt64) : (p.insertMsg cmd seq buf tick).fd = p.fd := by
  unfold CMSClient.insertMsg
  split <;> rfl

end Answers

-- A message with a body is filed under the command and the number it came with.
theorem seqSurvives_message {srv : TcpServer} {fd : Int} {h : MsgHeader} {buf : Bytes}
    {pClient : CMSClient} {tick : UInt64} (hclient : srv.findClient fd = some pClient) (hbuf : buf ≠ []) :
    SeqSurvives srv fd h buf (srv.onClient fd fun p => p.insertMsg h.cmd h.seq buf tick) [] where
  answered sent hsent := by cases hsent
  filed q hq _ _ _ := by
    rw [hclient] at hq
    obtain rfl := Option.some.inj hq
    exact ⟨_, _, TcpServer.findClient_onClient (fun p => insertMsg_fd p tick) hclient,
      insertMsg_msglist pClient tick hbuf, filedAs_insert h buf tick⟩
  only p hp pNode hnode := by
    rcases mem_updateFirst hp with hold | ⟨x, hfind, hx⟩
    · exact .inl ⟨p, hold, hnode⟩
    · obtain rfl := Option.some.inj hx
      rw [insertMsg_msglist x tick hbuf] at hnode
      rcases List.mem_append.mp hnode with hold | hnew
      · exact .inl ⟨x, List.mem_of_find?_eq_some hfind, hold⟩
      · rw [List.mem_singleton.mp hnew]
        exact .inr (filedAs_insert h buf tick)

-- Nothing is filed where no message is due.
theorem seqSurvives_quiet {srv after : TcpServer} {fd : Int} {h : MsgHeader} {body : Bytes}
    {out : List Sent} (hanswered : ∀ sent ∈ out, sent.1 = fd ∧ sent.2.answers h)
    (hnone : NoneFiled srv after)
    (hcmd : srv.findClient fd = none ∨ h.cmd = KEEP_ALIVE ∨ h.cmd = UPDATE_CHANGE ∨ body = []) :
    SeqSurvives srv fd h body after out where
  answered := hanswered
  filed pClient hclient halive hchange hbody := by
    rcases hcmd with hnew | hcmd | hcmd | hempty
    · rw [hnew] at hclient
      cases hclient
    · exact absurd hcmd halive
    · exact absurd hcmd hchange
    · exact absurd hempty hbody
  only p hp pNode hnode := .inl (hnone p hp pNode hnode)

-- A keep-alive of a client goes to `update_livecount` with the number that was passed on.
theorem handlerReadDb_keepAlive {srv : TcpServer} {fd seq : Int} {buf : Bytes} {env : LoginEnv}
    {pClient : CMSClient} (hclient : srv.findClient fd = some pClient) :
    srv.handlerReadDb fd KEEP_ALIVE seq buf env =
      some (updateLivecount srv fd seq (env.frameEnv (ReqLogin.decode buf))) := by
  rw [TcpServer.handlerReadDb, if_neg (by simp [hclient]), handlerRead, hclient]
  exact if_pos rfl

-- The number survives as long as the frame does not lose it in the branch without a body.
theorem seqSurvives_of_not_loses {srv after : TcpServer} {fd : Int} {h : MsgHeader} {buf : Bytes}
    {seq : Int} {env : LoginEnv} {out : List Sent}
    (hseq : h.size = 0 ∧ seq = 0 ∧ buf = [] ∨ h.size ≠ 0 ∧ buf ≠ [] ∧ seq = h.seq)
    (hkeeps : ¬ LosesSeq srv fd h env)
    (hread : srv.handlerReadDb fd h.cmd seq buf env = some (after, out)) :
    SeqSurvives srv fd h buf after out := by
  cases handlerRead_move (handlerReadDb_eq hread) with
  | refused hnew hother =>
      exact seqSurvives_quiet (fun _ hsent => nomatch hsent) (.refl _) (.inl hnew)
  | login hnew hcmd hsize hlogin =>
      refine seqSurvives_quiet (fun sent hsent => ?_) (noneFiled_login hnew hread) (.inl hnew)
      obtain ⟨hfd, result, size, resv, pids, hframe⟩ := handleLoginEx_out hlogin sent hsent
      -- a login that is looked at has its 104 bytes
      have hnumber : seq = h.seq := by
        rcases hseq with ⟨-, -, hempty⟩ | ⟨-, -, hseq⟩
        · rw [hempty] at hsize
          exact absurd hsize (by decide)
        · exact hseq
      refine ⟨hfd, ?_⟩
      rw [hframe]
      exact ⟨hcmd, hnumber⟩
  | keepAlive hclient hcmd halive =>
      obtain rfl := congrArg Prod.fst halive
      obtain rfl := congrArg Prod.snd halive
      refine seqSurvives_quiet (fun sent hsent => ?_) (noneFiled_updateLivecount srv fd seq _)
        (.inr (.inl hcmd))
      rw [updateLivecount_out] at hsent
      split at hsent
      · rename_i hanswered
        rw [List.mem_singleton.mp hsent]
        refine ⟨rfl, hcmd, ?_⟩
        rcases hseq with ⟨hsize, hzero, -⟩ | ⟨-, -, hseq⟩
        · by_contra hne
          refine hkeeps ⟨hcmd, hsize, fun h0 => hne (hzero.trans h0.symm), ?_, hanswered⟩
          exact Option.isSome_iff_exists.mpr ⟨_, hclient⟩
        · exact hseq
      · cases hsent
  | updateChange hclient hcmd hchange =>
      refine seqSurvives_quiet (fun _ hsent => nomatch hsent) ?_ (.inr (.inr (.inl hcmd)))
      exact noneFiled_onClient srv fd fun _ => rfl
  | message hclient halive hchange =>
      rcases hseq with ⟨-, -, rfl⟩ | ⟨-, hbuf, rfl⟩
      · -- `InsertMsg` returns -1
        refine seqSurvives_quiet (fun _ hsent => nomatch hsent) ?_ (.inr (.inr (.inr rfl)))
        exact noneFiled_onClient srv fd fun _ => rfl
      · exact seqSurvives_message hclient hbuf

-- Only a keep-alive without a body comes back with another number.
theorem seq_survives_iff {avail rest : Bytes} {call : ReadCall}
    (hread : readTask avail = some (some call, rest)) (srv : TcpServer) (fd : Int) (env : LoginEnv) :
    (∀ after out, srv.handlerReadDb fd call.cmd call.seq call.buf env = some (after, out) →
      SeqSurvives srv fd (MsgHeader.decode (avail.take sizeofMsgHeader)) (frameBody avail) after out) ↔
    ¬ LosesSeq srv fd (MsgHeader.decode (avail.take sizeofMsgHeader)) env := by
  obtain ⟨hcmd, hbody, hseq⟩ := readTask_call hread
  rw [hcmd, ← hbody]
  constructor
  · rintro hall ⟨halive, hsize, hne, hclient, hsent⟩
    obtain ⟨pClient, hclient⟩ := Option.isSome_iff_exists.mp hclient
    have hzero : call.seq = 0 := by
      rcases hseq with ⟨-, hzero, -⟩ | ⟨hsize', -⟩
      · exact hzero
      · exact absurd hsize hsize'
    have hrun := @handlerReadDb_keepAlive srv fd call.seq call.buf env pClient hclient
    rw [← halive] at hrun
    have hmem : (fd, Outgoing.keepAliveRe call.seq) ∈ (updateLivecount srv fd call.seq
        (env.frameEnv (ReqLogin.decode call.buf))).2 := by
      simp [updateLivecount_out, LoginEnv.frameEnv, hsent]
    have hanswer := (hall _ _ hrun).answered _ hmem
    exact hne (hanswer.2.2.symm.trans hzero)
  · intro hkeeps after out hrun
    exact seqSurvives_of_not_loses hseq hkeeps hrun

-- A frame on the wire.
def wireFrame (cmd seq : Int) (body : Bytes) : Bytes := header cmd seq body.length ++ body

-- One client, on descriptor 5.
def oneClient : TcpServer := ⟨[{ fd := 5, cmsid := "A", livecount := 0, devlist := ∅, msglist := [] }]⟩

def quietEnv : LoginEnv := { tick := 9, ada := .failed, cam := .failed, sent := true }

-- The answer to a push request is there for the call that waits for it.
theorem seq_survives_answer :
    readTask (wireFrame RESP_PUSH 7 [1]) = some (some ⟨RESP_PUSH, 7, [1]⟩, []) ∧
      ∃ after out, oneClient.handlerReadDb 5 RESP_PUSH 7 [1] quietEnv = some (after, out) ∧
        SeqSurvives oneClient 5 (MsgHeader.decode ((wireFrame RESP_PUSH 7 [1]).take sizeofMsgHeader))
          (frameBody (wireFrame RESP_PUSH 7 [1])) after out := by
  have hread : readTask (wireFrame RESP_PUSH 7 [1]) = some (some ⟨RESP_PUSH, 7, [1]⟩, []) := by
    decide +kernel
  refine ⟨hread, _, _, rfl, ?_⟩
  refine (seq_survives_iff hread oneClient 5 quietEnv).mpr ?_ _ _ rfl
  rintro ⟨hcmd, -⟩
  revert hcmd
  decide +kernel

-- A keep-alive with the number 7 is answered with 0.
theorem seq_lost :
    ¬ ∀ avail rest call srv fd env after out, readTask avail = some (some call, rest) →
      TcpServer.handlerReadDb srv fd call.cmd call.seq call.buf env = some (after, out) →
      SeqSurvives srv fd (MsgHeader.decode (avail.take sizeofMsgHeader)) (frameBody avail)
        after out := by
  intro hall
  have hread : readTask (wireFrame KEEP_ALIVE 7 []) = some (some ⟨KEEP_ALIVE, 0, []⟩, []) := by
    decide +kernel
  have hanswer := (hall _ _ _ oneClient 5 quietEnv _ _ hread rfl).answered (5, .keepAliveRe 0)
    (List.mem_singleton_self _)
  have hseq : (MsgHeader.decode ((wireFrame KEEP_ALIVE 7 []).take sizeofMsgHeader)).seq = 7 := by
    decide +kernel
  rw [Outgoing.answers, hseq] at hanswer
  exact absurd hanswer.2.2 (by decide)

-- An answer as the frame that is built from it.
def Outgoing.answerFrame : Outgoing → Option OutFrame
  | .respLogin seq result _ resv pids => some (.respLogin seq result (idBytes resv) (pids.map idBytes))
  | .keepAliveRe seq => some (.keepAliveRe seq)
  | _ => none

theorem decode_header_seq (cmd seq size : Int) (body : Bytes) :
    (MsgHeader.decode (header cmd seq size ++ body)).seq = (BitVec.ofInt 32 seq).toInt := by
  have h := intAt_intBytes ([97, 116, 98, 0] ++ intBytes cmd) (intBytes size ++ zeros 64 ++ body) seq
  have hlength : ([97, 116, 98, 0] ++ intBytes cmd : Bytes).length = 8 := by simp [length_intBytes]
  rw [hlength] at h
  simpa [MsgHeader.decode, header, List.append_assoc] using h

-- A number that was read from a header goes through another one unchanged.
theorem ofInt_seq (bytes : Bytes) :
    (BitVec.ofInt 32 (MsgHeader.decode bytes).seq).toInt = (MsgHeader.decode bytes).seq := by
  simp only [MsgHeader.decode, intAt, BitVec.ofInt_toInt]

-- The bytes of an answer that fits have the number at the place where the frame had it.
theorem decode_answer_seq {avail : Bytes} {answer : Outgoing} {frame : OutFrame}
    (hanswer : answer.answers (MsgHeader.decode avail)) (hframe : answer.answerFrame = some frame)
    (hfits : frame.Fits) :
    ∃ bytes, frame.build = some bytes ∧ (MsgHeader.decode bytes).seq = (MsgHeader.decode avail).seq := by
  have hseq : frame.seq = (MsgHeader.decode avail).seq := by
    cases answer with
    | respLogin seq result size resv pids =>
        obtain rfl := Option.some.inj hframe
        exact hanswer.2
    | keepAliveRe seq =>
        obtain rfl := Option.some.inj hframe
        exact hanswer.2
    | _ => cases hframe
  refine ⟨frame.layout, build_of_fits hfits, ?_⟩
  rw [OutFrame.layout, decode_header_seq, hseq, ofInt_seq]

-- A call that waits for this command and number gets the message, unless an older one is there for
-- it; for every other call it makes no difference.
theorem waitLoop_filed {msglist : List MessageNode} {pNode : MessageNode} {h : MsgHeader} {body : Bytes}
    (hfiled : pNode.FiledAs h body) (iType seqnum : Int) {rounds : List (List MessageNode)}
    (hrounds : rounds ≠ []) :
    (iType = h.cmd ∧ seqnum = h.seq → msglist.find? (MessageNode.isFor iType seqnum) = none →
        (waitLoop iType seqnum (msglist ++ [pNode]) rounds).1 = some pNode) ∧
      (¬ (iType = h.cmd ∧ seqnum = h.seq) →
        (waitLoop iType seqnum (msglist ++ [pNode]) rounds).1 = (waitLoop iType seqnum msglist rounds).1) := by
  simp only [waitLoop_eq, if_neg hrounds, List.find?_append]
  constructor
  · intro hfor hnone
    have htest := (hfiled.isFor_iff iType seqnum).mpr hfor
    simp [hnone, htest]
  · intro hother
    have htest : ¬ pNode.isFor iType seqnum :=
      fun htest => hother ((hfiled.isFor_iff iType seqnum).mp htest)
    simp [htest]

end VideoAdapter.Adapter
