import VideoAdapter.Http.Custody
import VideoAdapter.Http.EpollSocket.Moves
import VideoAdapter.Lib.Run

namespace VideoAdapter.Http

open Lib

-- What a thread has in custody at each place where it can stand, and the descriptors that it has
-- besides.
def ClosePc.tokens : ClosePc → List (Nat × Stage)
  | .releasing ptr => [(ptr, .closing)]
  | .closing _ => []
  | .leaving => []

def ClosePc.loose : ClosePc → List Nat
  | .releasing _ => []
  | .closing fd => [fd]
  | .leaving => []

def ReadPc.tokens : ReadPc → List (Nat × Stage)
  | .reading ptr => [(ptr, .reading)]
  | .rearming ptr fd mask => [(ptr, .rearming fd mask)]
  | .closing pc => pc.tokens

def ReadPc.loose : ReadPc → List Nat
  | .reading _ => []
  | .rearming _ _ _ => []
  | .closing pc => pc.loose

def LoopPc.tokens : LoopPc → List (Nat × Stage)
  | .adding ptr fd => [(ptr, .adding fd)]
  | .writing ptr => [(ptr, .writing)]
  | .rearming ptr fd mask => [(ptr, .rearming fd mask)]
  | .closing pc => pc.tokens
  | _ => []

def LoopPc.loose : LoopPc → List Nat
  | .counting fd => [fd]
  | .opening fd => [fd]
  | .closing pc => pc.loose
  | _ => []

def Ready.tokens : Ready → List (Nat × Stage)
  | .listener => []
  | .conn ptr .readable => [(ptr, .reading)]
  | .conn ptr .writeable => [(ptr, .writing)]
  | .conn ptr .other => [(ptr, .dropping)]

def Conn.context {State : Type*} (conn : Conn State) : EpollContext State where
  fd := conn.fd
  ptr := conn.state

-- The place of a thread after its `on_readable` agrees with what that returned.
theorem ReadNext.fits {ptr fd : Nat} {ret : ReadRet} {next : ReadPc} (h : ReadNext ptr fd ret next) :
    ∃ stage : Stage, stage.Fits fd ret.phase ∧ next.tokens = [(ptr, stage)] ∧ next.loose = [] := by
  cases h with
  | close => exact ⟨.closing, .inr rfl, rfl, rfl⟩
  | more => exact ⟨.rearming fd .epollin, ⟨rfl, rfl⟩, rfl, rfl⟩
  | done => exact ⟨.rearming fd .epollout, ⟨rfl, rfl⟩, rfl, rfl⟩

theorem WriteNext.fits {ptr fd : Nat} {ret : WriteRet} {next : LoopPc}
    (h : WriteNext ptr fd ret next) :
    ∃ stage : Stage, stage.Fits fd ret.phase ∧ next.tokens = [(ptr, stage)] ∧ next.loose = [] := by
  cases h with
  | close hret =>
      rcases hret with rfl | rfl
      · exact ⟨.closing, .inr rfl, rfl, rfl⟩
      · exact ⟨.closing, .inl rfl, rfl, rfl⟩
  | more => exact ⟨.rearming fd .epollout, ⟨rfl, rfl⟩, rfl, rfl⟩
  | alive => exact ⟨.rearming fd .epollin, ⟨rfl, rfl⟩, rfl, rfl⟩

namespace EpollSocket

variable {State Input : Type*}

def tokens (server : EpollSocket State) : List (Nat × Stage) :=
  server.pc.tokens ++ (server.events.flatMap Ready.tokens ++
    server.threadPool.items.flatMap ReadPc.tokens)

def loose (server : EpollSocket State) : List Nat :=
  server.pc.loose ++ server.threadPool.items.flatMap ReadPc.loose

-- The server without its threads. The phases of the connections are not in its memory.
def custody (server : EpollSocket State) (conns : List (Option (Conn State))) : Custody State where
  conns := conns
  epoll := server.epoll
  opened := server.opened
  tokens := server.tokens
  loose := server.loose

def Matches (conns : List (Option (Conn State))) (heap : List (Option (EpollContext State))) : Prop :=
  conns.map (Option.map Conn.context) = heap

section Matches

variable {conns : List (Option (Conn State))} {heap : List (Option (EpollContext State))} {ptr : Nat}

theorem Matches.set (h : Matches conns heap) (conn : Option (Conn State)) :
    Matches (conns.set ptr conn) (heap.set ptr (conn.map Conn.context)) := by
  rw [Matches, List.map_set, h]

theorem Matches.conn (h : Matches conns heap) {context : EpollContext State}
    (hcontext : heap[ptr]? = some (some context)) :
    ∃ conn, conns[ptr]? = some (some conn) ∧ conn.context = context := by
  rw [← h, List.getElem?_map, Option.map_eq_some_iff] at hcontext
  obtain ⟨cell, hcell, hmap⟩ := hcontext
  obtain ⟨conn, rfl, hsame⟩ := Option.map_eq_some_iff.mp hmap
  exact ⟨conn, hcell, hsame⟩

theorem Matches.length_eq (h : Matches conns heap) : conns.length = heap.length := by
  rw [← h, List.length_map]

end Matches

variable {watcher : EpollSocketWatcher State Input} {server after : EpollSocket State}
  {label : Option (Nat × Call Input)} {conns : List (Option (Conn State))}

-- One thread of the pool, and everybody else.
theorem hold_custody {j : Nat} {pc : ReadPc} (hj : server.threadPool.hands[j]? = some (some pc))
    (next : Option ReadPc) :
    ∃ tokens loose, server.tokens.Perm (pc.tokens ++ tokens) ∧ server.loose.Perm (pc.loose ++ loose) ∧
      (server.pc.tokens ++ (server.events.flatMap Ready.tokens ++
        (server.threadPool.hold j next).items.flatMap ReadPc.tokens)).Perm
          (next.toList.flatMap ReadPc.tokens ++ tokens) ∧
      (server.pc.loose ++ (server.threadPool.hold j next).items.flatMap ReadPc.loose).Perm
        (next.toList.flatMap ReadPc.loose ++ loose) := by
  obtain ⟨others, hbefore, hafter⟩ := TaskQueue.items_hold hj next
  have hswap : ∀ {α : Type} (front own rest : List α),
      (front ++ (own ++ rest)).Perm (own ++ (front ++ rest)) := by
    intro α front own rest
    rw [← List.append_assoc, ← List.append_assoc]
    exact List.perm_append_comm.append_right _
  refine ⟨server.pc.tokens ++ server.events.flatMap Ready.tokens ++ others.flatMap ReadPc.tokens,
    server.pc.loose ++ others.flatMap ReadPc.loose, ?_, ?_, ?_, ?_⟩
  · rw [EpollSocket.tokens, ← List.append_assoc]
    exact ((hbefore.flatMap_right _).append_left _).trans (hswap _ _ _)
  · exact ((hbefore.flatMap_right _).append_left _).trans (hswap _ _ _)
  · have hnext := hafter.flatMap_right ReadPc.tokens
    rw [List.flatMap_append] at hnext
    rw [← List.append_assoc]
    exact (hnext.append_left _).trans (hswap _ _ _)
  · have hnext := hafter.flatMap_right ReadPc.loose
    rw [List.flatMap_append] at hnext
    exact (hnext.append_left _).trans (hswap _ _ _)

theorem step_of_act {a' b' : Custody State} {a b : Custody State} (hbefore : Custody.Same a a')
    (act : Custody.Act watcher a' label b') (hafter : Custody.Same b' b) :
    Custody.Step watcher a label b := ⟨a', b', hbefore, act, hafter⟩

-- A step of `close_and_release` by whoever makes it.
theorem CloseMove.act {pc : ClosePc} {next : Option ClosePc}
    (move : server.CloseMove pc after next label) (hmatch : Matches conns server.heap)
    {before own others : List (Nat × Stage)} {looseBefore looseOwn looseOthers : List Nat}
    (hbefore : before.Perm (pc.tokens ++ others))
    (hown : own.Perm (next.toList.flatMap ClosePc.tokens ++ others))
    (hlooseBefore : looseBefore.Perm (pc.loose ++ looseOthers))
    (hlooseOwn : looseOwn.Perm (next.toList.flatMap ClosePc.loose ++ looseOthers)) :
    ∃ conns', Matches conns' after.heap ∧
      Custody.Step watcher ⟨conns, server.epoll, server.opened, before, looseBefore⟩ label
        ⟨conns', after.epoll, after.opened, own, looseOwn⟩ := by
  have hstart : Custody.Same ⟨conns, server.epoll, server.opened, before, looseBefore⟩
      ⟨conns, server.epoll, server.opened, pc.tokens ++ others, pc.loose ++ looseOthers⟩ :=
    ⟨rfl, rfl, rfl, hbefore.symm, hlooseBefore.symm⟩
  cases move with
  | @release ptr context hcontext =>
      obtain ⟨conn, hconn, rfl⟩ := hmatch.conn hcontext
      refine ⟨conns.set ptr none, hmatch.set none, ?_⟩
      exact step_of_act hstart (.release hconn rfl) ⟨rfl, rfl, rfl, hown, hlooseOwn⟩
  | close =>
      exact ⟨conns, hmatch, step_of_act hstart (.close rfl) ⟨rfl, rfl, rfl, hown, hlooseOwn⟩⟩
  | leave => exact ⟨conns, hmatch, step_of_act hstart .rest ⟨rfl, rfl, rfl, hown, hlooseOwn⟩⟩
  | last => exact ⟨conns, hmatch, step_of_act hstart .rest ⟨rfl, rfl, rfl, hown, hlooseOwn⟩⟩

theorem WorkerMove.act {j : Nat} {env : Env Input} {hand : Option ReadPc}
    (move : server.WorkerMove watcher j env hand after label)
    (hhand : server.threadPool.hands[j]? = some hand) (hmatch : Matches conns server.heap) :
    ∃ conns', Matches conns' after.heap ∧
      Custody.Step watcher (server.custody conns) label (after.custody conns') := by
  -- the thread's own tokens stand first
  have hfront : ∀ {tokens : List (Nat × Stage)} {loose : List Nat},
      server.tokens.Perm tokens → server.loose.Perm loose →
        Custody.Same (server.custody conns) ⟨conns, server.epoll, server.opened, tokens, loose⟩ :=
    fun htokens hloose => ⟨rfl, rfl, rfl, htokens.symm, hloose.symm⟩
  cases move with
  | take hpool =>
      have hperm := TaskQueue.items_take hpool
      refine ⟨conns, hmatch, step_of_act (Custody.Same.refl _) .rest ⟨rfl, rfl, rfl, ?_, ?_⟩⟩
      · exact ((hperm.flatMap_right _).append_left _).append_left _
      · exact (hperm.flatMap_right _).append_left _
  | read hcontext hnext =>
      obtain ⟨conn, hconn, rfl⟩ := hmatch.conn hcontext
      obtain ⟨stage, hfits, hstage, hnone⟩ := hnext.fits
      obtain ⟨tokens, loose, htokens, hloose, hafter, hlooseAfter⟩ := hold_custody hhand (some _)
      rw [Option.toList_some, List.flatMap_singleton, hstage] at hafter
      rw [Option.toList_some, List.flatMap_singleton, hnone] at hlooseAfter
      refine ⟨_, hmatch.set (some { conn with
        phase := (watcher.onReadable conn.state env.input).2.phase
        state := (watcher.onReadable conn.state env.input).1 }),
        step_of_act (hfront htokens hloose) (.read hconn rfl hfits) ?_⟩
      exact ⟨rfl, rfl, rfl, hafter, hlooseAfter⟩
  | rearm =>
      obtain ⟨tokens, loose, htokens, hloose, hafter, hlooseAfter⟩ := hold_custody hhand none
      exact ⟨conns, hmatch, step_of_act (hfront htokens hloose) (.rearm rfl)
        ⟨rfl, rfl, rfl, hafter, hlooseAfter⟩⟩
  | @close pc closed next call move =>
      obtain ⟨-, hevents, hpc⟩ := move.keeps
      obtain ⟨tokens, loose, htokens, hloose, hafter, hlooseAfter⟩ :=
        hold_custody hhand (next.map .closing)
      have hnext : (next.map ReadPc.closing).toList.flatMap ReadPc.tokens =
          next.toList.flatMap ClosePc.tokens := by cases next <;> rfl
      have hnextLoose : (next.map ReadPc.closing).toList.flatMap ReadPc.loose =
          next.toList.flatMap ClosePc.loose := by cases next <;> rfl
      rw [hnext, ← hevents, ← hpc] at hafter
      rw [hnextLoose, ← hpc] at hlooseAfter
      exact move.act hmatch htokens hafter hloose hlooseAfter

theorem EventMove.act {event : Ready} {rest : List Ready} (hpc : server.pc = .handling)
    (hevents : server.events = event :: rest)
    (move : EventMove { server with events := rest } event after)
    (hmatch : Matches conns server.heap) :
    ∃ conns', Matches conns' after.heap ∧
      Custody.Step watcher (server.custody conns) none (after.custody conns') := by
  have htokens : server.tokens = event.tokens ++
      (rest.flatMap Ready.tokens ++ server.threadPool.items.flatMap ReadPc.tokens) := by
    rw [tokens, hpc, hevents, List.flatMap_cons, List.append_assoc]
    rfl
  have hloose : server.loose = server.threadPool.items.flatMap ReadPc.loose := by
    rw [loose, hpc]
    rfl
  have hstart : Custody.Same (server.custody conns) ⟨conns, server.epoll, server.opened,
      event.tokens ++ (rest.flatMap Ready.tokens ++ server.threadPool.items.flatMap ReadPc.tokens),
      server.threadPool.items.flatMap ReadPc.loose⟩ :=
    ⟨rfl, rfl, rfl, List.Perm.of_eq htokens.symm, List.Perm.of_eq hloose.symm⟩
  -- the custody after a step that leaves the connections and the place of the loop
  have hrest : ∀ {final : EpollSocket State}, final.epoll = server.epoll →
      final.opened = server.opened → final.threadPool = server.threadPool → final.events = rest →
      final.pc = .handling →
        Custody.Same ⟨conns, server.epoll, server.opened,
          rest.flatMap Ready.tokens ++ server.threadPool.items.flatMap ReadPc.tokens,
          server.threadPool.items.flatMap ReadPc.loose⟩ (final.custody conns) := by
    intro final hepoll hopened hpool hrest hfinal
    refine ⟨rfl, hepoll, hopened, ?_, ?_⟩
    · simp only [custody, tokens, hpool, hrest, hfinal]
      exact List.Perm.refl _
    · simp only [custody, loose, hpool, hfinal]
      exact List.Perm.refl _
  cases move with
  | ignore => exact ⟨conns, hmatch, step_of_act hstart .rest (hrest rfl rfl rfl rfl hpc)⟩
  | accept _ hclosed =>
      exact ⟨conns, hmatch, step_of_act hstart (.accept hclosed)
        ⟨rfl, rfl, rfl, List.Perm.refl _, List.Perm.refl _⟩⟩
  | stop => exact ⟨conns, hmatch, step_of_act hstart .rest (hrest rfl rfl rfl rfl hpc)⟩
  | @queue ptr =>
      have hitems := TaskQueue.items_push server.threadPool (.reading ptr)
      refine ⟨conns, hmatch, step_of_act hstart .rest ⟨rfl, rfl, rfl, ?_, ?_⟩⟩
      · simp only [custody, tokens, hpc]
        refine ((hitems.flatMap_right ReadPc.tokens).append_left _).trans ?_
        exact List.perm_middle
      · simp only [custody, loose, hpc]
        exact hitems.flatMap_right ReadPc.loose
  | refuse =>
      exact ⟨conns, hmatch, step_of_act hstart (.refuse rfl)
        ⟨rfl, rfl, rfl, List.Perm.refl _, List.Perm.refl _⟩⟩
  | write =>
      exact ⟨conns, hmatch, step_of_act hstart .rest
        ⟨rfl, rfl, rfl, List.Perm.refl _, List.Perm.refl _⟩⟩
  | drop => exact ⟨conns, hmatch, step_of_act hstart (.drop rfl) (hrest rfl rfl rfl rfl hpc)⟩

theorem LoopMove.act {env : Env Input}
    (move : server.LoopMove watcher env server.pc after label)
    (hmatch : Matches conns server.heap) :
    ∃ conns', Matches conns' after.heap ∧
      Custody.Step watcher (server.custody conns) label (after.custody conns') := by
  have hstart : ∀ {pc : LoopPc}, server.pc = pc → Custody.Same (server.custody conns)
      ⟨conns, server.epoll, server.opened, pc.tokens ++ (server.events.flatMap Ready.tokens ++
        server.threadPool.items.flatMap ReadPc.tokens),
        pc.loose ++ server.threadPool.items.flatMap ReadPc.loose⟩ := by
    rintro pc rfl
    exact Custody.Same.refl _
  generalize hpc : server.pc = pc at move
  have hfront := hstart hpc
  cases move with
  | stop => exact ⟨conns, hmatch, step_of_act hfront .rest (Custody.Same.refl _)⟩
  | poll => exact ⟨conns, hmatch, step_of_act hfront .rest (Custody.Same.refl _)⟩
  | wake => exact ⟨conns, hmatch, step_of_act hfront .rest (Custody.Same.refl _)⟩
  | back => exact ⟨conns, hmatch, step_of_act hfront .rest (Custody.Same.refl _)⟩
  | handle hevents move => exact move.act hpc hevents hmatch
  | count => exact ⟨conns, hmatch, step_of_act hfront .rest (Custody.Same.refl _)⟩
  | @create fd =>
      have hlength := hmatch.length_eq
      refine ⟨conns ++ [some { fd := fd, phase := .reading, state := watcher.onAccept fd }], ?_, ?_⟩
      · rw [Matches, List.map_append, hmatch]
        rfl
      · have hcreate := (.create rfl : Custody.Act watcher ⟨conns, server.epoll, server.opened,
          (LoopPc.opening fd).tokens ++
            (server.events.flatMap Ready.tokens ++ server.threadPool.items.flatMap ReadPc.tokens),
          (LoopPc.opening fd).loose ++ server.threadPool.items.flatMap ReadPc.loose⟩ _ _)
        rw [hlength] at hcreate
        exact step_of_act hfront hcreate (Custody.Same.refl _)
  | add => exact ⟨conns, hmatch, step_of_act hfront (.add rfl) (Custody.Same.refl _)⟩
  | write hcontext hnext =>
      obtain ⟨conn, hconn, rfl⟩ := hmatch.conn hcontext
      obtain ⟨stage, hfits, hstage, hnone⟩ := hnext.fits
      refine ⟨_, hmatch.set (some { conn with
        phase := (watcher.onWriteable conn.state env.input).2.phase
        state := (watcher.onWriteable conn.state env.input).1 }),
        step_of_act hfront (.write hconn rfl hfits) ⟨rfl, rfl, rfl, ?_, ?_⟩⟩
      · exact List.Perm.of_eq (congrArg (· ++ _) hstage)
      · exact List.Perm.of_eq (congrArg (· ++ _) hnone)
  | rearm => exact ⟨conns, hmatch, step_of_act hfront (.rearm rfl) (Custody.Same.refl _)⟩
  | @close pc closed next call move =>
      obtain ⟨hpool, hevents, -⟩ := move.keeps
      have hnext : ((next.map LoopPc.closing).getD .handling).tokens =
          next.toList.flatMap ClosePc.tokens := by cases next <;> simp [LoopPc.tokens]
      have hnextLoose : ((next.map LoopPc.closing).getD .handling).loose =
          next.toList.flatMap ClosePc.loose := by cases next <;> simp [LoopPc.loose]
      have htokens : server.tokens.Perm (pc.tokens ++ (server.events.flatMap Ready.tokens ++
          server.threadPool.items.flatMap ReadPc.tokens)) := by
        rw [tokens, hpc]
        exact List.Perm.refl _
      have hloose : server.loose.Perm (pc.loose ++ server.threadPool.items.flatMap ReadPc.loose) := by
        rw [loose, hpc]
        exact List.Perm.refl _
      refine move.act hmatch htokens ?_ hloose ?_
      · simp only [tokens, hnext, hpool, hevents]
        exact List.Perm.refl _
      · simp only [loose, hnextLoose, hpool]
        exact List.Perm.refl _

-- Every step of the server is one of what may be done with the connections.
theorem step_custody {action : Action Input} (hs : step watcher server action = some (after, label))
    (hmatch : Matches conns server.heap) :
    ∃ conns', Matches conns' after.heap ∧
      Custody.Step watcher (server.custody conns) label (after.custody conns') := by
  cases step_move hs with
  | stopEpoll =>
      exact ⟨conns, hmatch, step_of_act (Custody.Same.refl _) .rest (Custody.Same.refl _)⟩
  | listen =>
      refine ⟨conns, hmatch, step_of_act (Custody.Same.refl _) .rest ⟨rfl, rfl, rfl, ?_, ?_⟩⟩
      · refine List.Perm.of_eq ?_
        simp [custody, tokens, Ready.tokens]
      · exact List.Perm.refl _
  | @deliver ptr fd events mask harmed hpc hyields =>
      refine ⟨conns, hmatch, ?_⟩
      obtain ⟨stage, hstage, htokens⟩ : ∃ stage : Stage,
          (stage = .dropping ∨ mask = .epollin ∧ stage = .reading ∨
            mask = .epollout ∧ stage = .writing) ∧
          (Ready.conn ptr events).tokens = [(ptr, stage)] := by
        cases events with
        | readable =>
            cases mask with
            | epollin => exact ⟨.reading, .inr (.inl ⟨rfl, rfl⟩), rfl⟩
            | epollout => cases hyields
        | writeable =>
            cases mask with
            | epollin => cases hyields
            | epollout => exact ⟨.writing, .inr (.inr ⟨rfl, rfl⟩), rfl⟩
        | other => exact ⟨.dropping, .inl rfl, rfl⟩
      refine step_of_act (Custody.Same.refl _) (.deliver harmed hstage)
        ⟨rfl, rfl, rfl, ?_, List.Perm.refl _⟩
      simp only [custody, tokens, arm, hpc, List.flatMap_append, List.flatMap_singleton, htokens]
      simp only [List.append_assoc, List.singleton_append]
      exact List.perm_middle
  | loop move => exact move.act hmatch
  | worker hhand move => exact move.act hhand hmatch

-- A server that has been started, whatever has happened since, is in custody.
theorem run_custody {threads : Nat} {history : List (Action Input × Option (Nat × Call Input))}
    {guard : List (Action Input × Option (Nat × Call Input)) → EpollSocket State →
      Action Input → Prop}
    (run : Run (step watcher) guard (started threads) history server) :
    ∃ conns, Matches conns server.heap ∧ (server.custody conns).Valid ∧
      Custody.Sequential watcher (history.map Prod.snd) (server.custody conns) := by
  refine run.invariant (fun history server => ∃ conns, Matches conns server.heap ∧
    (server.custody conns).Valid ∧
      Custody.Sequential watcher (history.map Prod.snd) (server.custody conns)) ?_ ?_
  · have hitems : (started threads : EpollSocket State).threadPool.items = [] := by
      simp [started, TaskQueue.items, List.filterMap_replicate_of_none]
    have hempty : (started threads : EpollSocket State).custody [] = {} := by
      have htokens : (started threads : EpollSocket State).tokens = [] := by
        rw [tokens, hitems]
        rfl
      have hloose : (started threads : EpollSocket State).loose = [] := by
        rw [loose, hitems]
        rfl
      rw [custody, htokens, hloose]
      rfl
    refine ⟨[], rfl, ?_⟩
    rw [hempty]
    exact ⟨Custody.valid_empty, Custody.sequential_empty⟩
  · rintro history before action after label ⟨conns, hmatch, hvalid, hcalls⟩ - hs
    obtain ⟨conns', hmatch', hstep⟩ := step_custody hs hmatch
    exact ⟨conns', hmatch', hstep.valid hvalid, hstep.sequential hvalid hcalls⟩

end EpollSocket

end VideoAdapter.Http
