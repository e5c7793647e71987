import Mathlib.Algebra.Order.Ring.Nat
import Mathlib.Data.List.Nodup
import VideoAdapter.Lib.Run

namespace VideoAdapter.Lib

-- A program that takes a connection from a pool, asks queries over it and gives it back.
-- `fetch` goes on with whether there was a connection, and `stuck` never returns.
inductive Prog {Query : Type} (Answer : Query → Type) (α : Type) where
  | ret (result : α)
  | fetch (next : Bool → Prog Answer α)
  | ask (query : Query) (next : Answer query → Prog Answer α)
  | recycle (next : Prog Answer α)
  | stuck

namespace Prog

variable {Query : Type} {Answer : Query → Type} {α β : Type}

def bind : Prog Answer α → (α → Prog Answer β) → Prog Answer β
  | .ret result, k => k result
  | .fetch next, k => .fetch fun ok => (next ok).bind k
  | .ask query next, k => .ask query fun answer => (next answer).bind k
  | .recycle next, k => .recycle (next.bind k)
  | .stuck, _ => .stuck

instance : Monad (Prog Answer) where
  pure := .ret
  bind := .bind

-- Runs a program alone: `connect` says whether there is a connection, and `answer` what the
-- other side answers and becomes.
def run {σ : Type} (connect : σ → Bool × σ) (answer : (query : Query) → σ → Answer query × σ) :
    Prog Answer α → σ → Option (α × σ)
  | .ret result, s => some (result, s)
  | .fetch next, s => (next (connect s).1).run connect answer (connect s).2
  | .ask query next, s => (next (answer query s).1).run connect answer (answer query s).2
  | .recycle next, s => next.run connect answer s
  | .stuck, _ => none

theorem run_bind {σ : Type} (connect : σ → Bool × σ)
    (answer : (query : Query) → σ → Answer query × σ) (prog : Prog Answer α) (k : α → Prog Answer β)
    (s : σ) : (prog >>= k).run connect answer s =
      (prog.run connect answer s).bind fun out => (k out.1).run connect answer out.2 := by
  induction prog generalizing s with
  | ret result => rfl
  | fetch next ih => exact ih _ _
  | ask query next ih => exact ih _ _
  | recycle next ih => exact ih _
  | stuck => rfl

-- A program that holds a connection or not: it fetches only without one, uses and recycles
-- only its own, and never returns with one.
def Balanced : Bool → Prog Answer α → Prop
  | held, .ret _ => held = false
  | held, .fetch next => held = false ∧ ∀ ok, Balanced ok (next ok)
  | held, .ask _ next => held = true ∧ ∀ answer, Balanced true (next answer)
  | held, .recycle next => held = true ∧ Balanced false next
  | _, .stuck => True

-- A program that only asks.
def Steady : Prog Answer α → Prop
  | .ret _ => True
  | .fetch _ => False
  | .ask _ next => ∀ answer, Steady (next answer)
  | .recycle _ => False
  | .stuck => True

theorem steady_pure (result : α) : Steady (pure result : Prog Answer α) := trivial

theorem Steady.bind {prog : Prog Answer α} {k : α → Prog Answer β} (hprog : Steady prog)
    (hk : ∀ result, Steady (k result)) : Steady (prog >>= k) := by
  induction prog with
  | ret result => exact hk result
  | fetch next => exact hprog.elim
  | ask query next ih => exact fun answer => ih answer (hprog answer)
  | recycle next => exact hprog.elim
  | stuck => trivial

-- A program that only asks keeps the connection for what follows it.
theorem Steady.balanced_bind {prog : Prog Answer α} {k : α → Prog Answer β} (hprog : Steady prog)
    (hk : ∀ result, Balanced true (k result)) : Balanced true (prog >>= k) := by
  induction prog with
  | ret result => exact hk result
  | fetch next => exact hprog.elim
  | ask query next ih => exact ⟨rfl, fun answer => ih answer (hprog answer)⟩
  | recycle next => exact hprog.elim
  | stuck => trivial

-- Every query that a program can ask meets the condition.
def Every (p : Query → Prop) : Prog Answer α → Prop
  | .ret _ => True
  | .fetch next => ∀ ok, Every p (next ok)
  | .ask query next => p query ∧ ∀ answer, Every p (next answer)
  | .recycle next => Every p next
  | .stuck => True

theorem Every.bind {p : Query → Prop} {prog : Prog Answer α} {k : α → Prog Answer β}
    (hprog : Every p prog) (hk : ∀ result, Every p (k result)) : Every p (prog >>= k) := by
  induction prog with
  | ret result => exact hk result
  | fetch next ih => exact fun ok => ih ok (hprog ok)
  | ask query next ih => exact ⟨hprog.1, fun answer => ih answer (hprog.2 answer)⟩
  | recycle next ih => exact ih hprog
  | stuck => trivial

theorem Balanced.map {held : Bool} {prog : Prog Answer α} (h : Balanced held prog) (f : α → β) :
    Balanced held (prog.bind fun result => .ret (f result)) := by
  induction prog generalizing held with
  | ret result => exact h
  | fetch next ih => exact ⟨h.1, fun ok => ih ok (h.2 ok)⟩
  | ask query next ih => exact ⟨h.1, fun answer => ih answer (h.2 answer)⟩
  | recycle next ih => exact ⟨h.1, ih h.2⟩
  | stuck => trivial

end Prog

section Pool

variable {Query : Type} {Answer : Query → Type} {α Conn Call : Type}

-- A thread in the middle of a call. `waited` has taken a unit of the semaphore and not yet a
-- connection, `pushed` has put its connection back and not yet the unit.
inductive PoolThread {Query : Type} (Answer : Query → Type) (α Conn : Type) where
  | running (prog : Prog Answer α) (held : Option Conn)
  | waited (next : Bool → Prog Answer α)
  | pushed (next : Prog Answer α)

structure Pool {Query : Type} (Answer : Query → Type) (α Conn : Type) where
  sem : Nat
  deque : List Conn
  threads : List (PoolThread Answer α Conn)

-- `answer` carries what the other side would answer to each query at this moment.
inductive PoolEvent {Query : Type} (Answer : Query → Type) (Call : Type) where
  | start (call : Call)
  | wait (i : Nat) (ok : Bool)
  | pop (i : Nat)
  | answer (i : Nat) (world : (query : Query) → Answer query)
  | push (i : Nat)
  | post (i : Nat)

def Pool.opened (conns : List Conn) : Pool Answer α Conn := ⟨conns.length, conns, []⟩

-- Taking the front of an empty deque has no result.
def poolStep (body : Call → Prog Answer α) (p : Pool Answer α Conn) :
    PoolEvent Answer Call → Option (Pool Answer α Conn × Unit)
  | .start call => some ({ p with threads := p.threads ++ [.running (body call) none] }, ())
  | .wait i ok =>
      match p.threads[i]? with
      | some (.running (.fetch next) _) =>
          if !ok then
            some ({ p with threads := p.threads.set i (.running (next false) none) }, ())
          else if p.sem = 0 then none
          else some ({ p with sem := p.sem - 1, threads := p.threads.set i (.waited next) }, ())
      | _ => none
  | .pop i =>
      match p.threads[i]?, p.deque with
      | some (.waited next), conn :: deque =>
          some ({ p with deque, threads := p.threads.set i (.running (next true) (some conn)) }, ())
      | _, _ => none
  | .answer i world =>
      match p.threads[i]? with
      | some (.running (.ask query next) held) =>
          some ({ p with threads := p.threads.set i (.running (next (world query)) held) }, ())
      | _ => none
  | .push i =>
      match p.threads[i]? with
      | some (.running (.recycle next) (some conn)) =>
          some ({ p with deque := p.deque ++ [conn], threads := p.threads.set i (.pushed next) }, ())
      | _ => none
  | .post i =>
      match p.threads[i]? with
      | some (.pushed next) =>
          some ({ p with sem := p.sem + 1, threads := p.threads.set i (.running next none) }, ())
      | _ => none

-- What one thread does to the semaphore and the deque.
inductive PoolMove : Nat → List Conn → PoolThread Answer α Conn → Nat → List Conn →
    PoolThread Answer α Conn → Prop where
  | granted {sem : Nat} {deque : List Conn} {next : Bool → Prog Answer α} {held : Option Conn} :
      PoolMove (sem + 1) deque (.running (.fetch next) held) sem deque (.waited next)
  | refused {sem : Nat} {deque : List Conn} {next : Bool → Prog Answer α} {held : Option Conn} :
      PoolMove sem deque (.running (.fetch next) held) sem deque (.running (next false) none)
  | popped {sem : Nat} {conn : Conn} {deque : List Conn} {next : Bool → Prog Answer α} :
      PoolMove sem (conn :: deque) (.waited next) sem deque (.running (next true) (some conn))
  | answered {sem : Nat} {deque : List Conn} {query : Query} {next : Answer query → Prog Answer α}
      {held : Option Conn} (answer : Answer query) :
      PoolMove sem deque (.running (.ask query next) held) sem deque (.running (next answer) held)
  | pushed {sem : Nat} {deque : List Conn} {next : Prog Answer α} {conn : Conn} :
      PoolMove sem deque (.running (.recycle next) (some conn)) sem (deque ++ [conn]) (.pushed next)
  | posted {sem : Nat} {deque : List Conn} {next : Prog Answer α} :
      PoolMove sem deque (.pushed next) (sem + 1) deque (.running next none)

-- A step starts a call or is a move of one thread.
theorem poolStep_cases {body : Call → Prog Answer α} {p after : Pool Answer α Conn}
    {event : PoolEvent Answer Call} {out : Unit} (h : poolStep body p event = some (after, out)) :
    (∃ call, after = { p with threads := p.threads ++ [.running (body call) none] }) ∨
      ∃ i old new, p.threads[i]? = some old ∧ after.threads = p.threads.set i new ∧
        PoolMove p.sem p.deque old after.sem after.deque new := by
  cases event with
  | start call =>
      simp only [poolStep, Option.some.injEq, Prod.mk.injEq] at h
      exact .inl ⟨call, h.1.symm⟩
  | wait i ok =>
      simp only [poolStep] at h
      split at h
      · rename_i hi
        split at h
        · cases h
          exact .inr ⟨i, _, _, hi, rfl, .refused⟩
        · split at h
          · cases h
          · rename_i hsem
            cases h
            obtain ⟨sem, hsem⟩ := Nat.exists_eq_succ_of_ne_zero hsem
            refine .inr ⟨i, _, _, hi, rfl, ?_⟩
            rw [hsem]
            exact .granted
      · cases h
  | pop i =>
      simp only [poolStep] at h
      split at h
      · rename_i hi hdeque
        cases h
        exact .inr ⟨i, _, _, hi, rfl, hdeque ▸ .popped⟩
      · cases h
  | answer i world =>
      simp only [poolStep] at h
      split at h
      · rename_i query _ _ hi
        cases h
        exact .inr ⟨i, _, _, hi, rfl, .answered (world query)⟩
      · cases h
  | push i =>
      simp only [poolStep] at h
      split at h
      · rename_i hi
        cases h
        exact .inr ⟨i, _, _, hi, rfl, .pushed⟩
      · cases h
  | post i =>
      simp only [poolStep] at h
      split at h
      · rename_i hi
        cases h
        exact .inr ⟨i, _, _, hi, rfl, .posted⟩
      · cases h

namespace PoolThread

-- What is left of the thread's program fits what it holds.
def WellFormed : PoolThread Answer α Conn → Prop
  | .running prog held => prog.Balanced held.isSome
  | .waited next => ∀ ok, (next ok).Balanced ok
  | .pushed next => next.Balanced false

-- The connections of the deque that the semaphore does not count.
def tokens : PoolThread Answer α Conn → Nat
  | .running _ _ => 0
  | .waited _ => 1
  | .pushed _ => 1

def conns : PoolThread Answer α Conn → List Conn
  | .running _ held => held.toList
  | .waited _ => []
  | .pushed _ => []

def Finished : PoolThread Answer α Conn → Prop
  | .running (.ret _) _ => True
  | _ => False

instance (t : PoolThread Answer α Conn) : Decidable t.Finished :=
  match t with
  | .running (.ret _) _ => isTrue trivial
  | .running (.fetch _) _ => isFalse id
  | .running (.ask _ _) _ => isFalse id
  | .running (.recycle _) _ => isFalse id
  | .running .stuck _ => isFalse id
  | .waited _ => isFalse id
  | .pushed _ => isFalse id

theorem Finished.idle {t : PoolThread Answer α Conn} (hf : t.Finished) (hw : t.WellFormed) :
    t.tokens = 0 ∧ t.conns = [] := by
  match t, hf with
  | .running (.ret result) held, _ =>
      have hnone : held = none := by simpa [WellFormed, Prog.Balanced] using hw
      subst hnone
      exact ⟨rfl, rfl⟩

end PoolThread

theorem PoolMove.wellFormed {sem sem' : Nat} {deque deque' : List Conn}
    {old new : PoolThread Answer α Conn} (h : PoolMove sem deque old sem' deque' new)
    (hold : old.WellFormed) : new.WellFormed := by
  cases h with
  | granted => exact hold.2
  | refused => exact hold.2 false
  | popped => exact hold true
  | @answered _ _ query next held answer =>
      have hheld : held.isSome = true := hold.1
      simpa only [PoolThread.WellFormed, hheld] using hold.2 answer
  | pushed => exact hold.2
  | posted => exact hold

theorem PoolMove.count {sem sem' : Nat} {deque deque' : List Conn}
    {old new : PoolThread Answer α Conn} (h : PoolMove sem deque old sem' deque' new) :
    deque'.length + (sem + old.tokens) = deque.length + (sem' + new.tokens) := by
  cases h with
  | granted => simp [PoolThread.tokens]
  | refused => simp [PoolThread.tokens]
  | popped =>
      simp only [PoolThread.tokens, List.length_cons]
      omega
  | answered => simp [PoolThread.tokens]
  | pushed =>
      simp only [PoolThread.tokens, List.length_append, List.length_singleton]
      omega
  | posted => simp [PoolThread.tokens]

-- A move hands connections over between the deque and the thread.
theorem PoolMove.conserved {sem sem' : Nat} {deque deque' : List Conn}
    {old new : PoolThread Answer α Conn} (h : PoolMove sem deque old sem' deque' new)
    (hold : old.WellFormed) : (deque' ++ new.conns).Perm (deque ++ old.conns) := by
  cases h with
  | @granted _ _ next held =>
      have hnone : held = none := by simpa using hold.1
      subst hnone
      exact .refl _
  | @refused _ _ next held =>
      have hnone : held = none := by simpa using hold.1
      subst hnone
      exact .refl _
  | popped => simp [PoolThread.conns]
  | answered => exact .refl _
  | pushed => simp [PoolThread.conns]
  | posted => exact .refl _

-- The semaphore counts the connections of the deque that nobody is about to take, and the
-- connections of the deque and of the threads are those the pool was opened with.
structure Pool.Sound (all : List Conn) (p : Pool Answer α Conn) : Prop where
  wellFormed : ∀ t ∈ p.threads, t.WellFormed
  count : p.deque.length = p.sem + (p.threads.map PoolThread.tokens).sum
  conserved : (p.deque ++ p.threads.flatMap PoolThread.conns).Perm all

theorem Pool.sound_opened (all : List Conn) : (Pool.opened all : Pool Answer α Conn).Sound all where
  wellFormed := by simp [Pool.opened]
  count := by simp [Pool.opened]
  conserved := by simp [Pool.opened]

theorem Pool.Sound.step {all : List Conn} {body : Call → Prog Answer α}
    (hbody : ∀ call, (body call).Balanced false) {p after : Pool Answer α Conn} (hp : p.Sound all)
    {event : PoolEvent Answer Call} {out : Unit} (h : poolStep body p event = some (after, out)) :
    after.Sound all := by
  rcases poolStep_cases h with ⟨call, rfl⟩ | ⟨i, old, new, hi, hthreads, hmove⟩
  · refine ⟨?_, ?_, ?_⟩
    · intro t ht
      rcases List.mem_append.mp ht with ht | ht
      · exact hp.wellFormed t ht
      · rw [List.mem_singleton.mp ht]
        exact hbody call
    · simpa [PoolThread.tokens] using hp.count
    · simpa [PoolThread.conns] using hp.conserved
  · -- the threads before and after the one that moves stay as they are
    obtain ⟨left, right, hsplit, hset⟩ : ∃ left right, p.threads = left ++ old :: right ∧
        after.threads = left ++ new :: right := by
      obtain ⟨hlt, hold⟩ := List.getElem?_eq_some_iff.mp hi
      refine ⟨p.threads.take i, p.threads.drop (i + 1), ?_, ?_⟩
      · rw [← hold, ← List.drop_eq_getElem_cons hlt, List.take_append_drop]
      · rw [hthreads, List.set_eq_take_append_cons_drop, if_pos hlt]
    have hwf : old.WellFormed := hp.wellFormed old (by simp [hsplit])
    refine ⟨?_, ?_, ?_⟩
    · intro t ht
      rw [hset] at ht
      rcases List.mem_append.mp ht with ht | ht
      · exact hp.wellFormed t (by simp [hsplit, ht])
      · rcases List.mem_cons.mp ht with rfl | ht
        · exact hmove.wellFormed hwf
        · exact hp.wellFormed t (by simp [hsplit, ht])
    · have hcount := hp.count
      have hmoved := hmove.count
      rw [hsplit] at hcount
      rw [hset]
      simp only [List.map_append, List.map_cons, List.sum_append, List.sum_cons] at hcount ⊢
      omega
    · have hconserved := hp.conserved
      have hmoved := hmove.conserved hwf
      rw [hsplit] at hconserved
      rw [hset]
      simp only [List.flatMap_append, List.flatMap_cons] at hconserved ⊢
      refine List.Perm.trans ?_ hconserved
      -- the connections of the other threads stand aside
      have hmid : ∀ (d l m r : List Conn), (d ++ (l ++ (m ++ r))).Perm ((d ++ m) ++ (l ++ r)) := by
        intro d l m r
        simp only [List.append_assoc]
        refine List.Perm.append_left d ?_
        simpa only [List.append_assoc] using (List.perm_append_comm : (l ++ m).Perm (m ++ l)).append_right r
      exact (hmid _ _ _ _).trans ((hmoved.append_right _).trans (hmid _ _ _ _).symm)

-- A thread that holds a unit of the semaphore finds a connection.
theorem Pool.Sound.deque_ne_nil {all : List Conn} {p : Pool Answer α Conn} (hp : p.Sound all)
    {next : Bool → Prog Answer α} (hwaited : .waited next ∈ p.threads) : p.deque ≠ [] := by
  have hpos : 0 < (p.threads.map PoolThread.tokens).sum :=
    List.sum_pos_iff_exists_pos_nat.mpr ⟨1, List.mem_map.mpr ⟨_, hwaited, rfl⟩, by decide⟩
  have hcount := hp.count
  intro hnil
  rw [hnil, List.length_nil] at hcount
  omega

-- When every call is over, the pool is what it was opened with.
theorem Pool.Sound.all_back {all : List Conn} {p : Pool Answer α Conn} (hp : p.Sound all)
    (hdone : ∀ t ∈ p.threads, t.Finished) : p.deque.Perm all ∧ p.sem = all.length := by
  have htokens : (p.threads.map PoolThread.tokens).sum = 0 := by
    rw [List.sum_eq_zero_iff_forall_eq_nat]
    intro n hn
    obtain ⟨t, ht, rfl⟩ := List.mem_map.mp hn
    exact ((hdone t ht).idle (hp.wellFormed t ht)).1
  have hconns : p.threads.flatMap PoolThread.conns = [] := by
    rw [List.flatMap_eq_nil_iff]
    exact fun t ht => ((hdone t ht).idle (hp.wellFormed t ht)).2
  have hperm := hp.conserved
  have hcount := hp.count
  rw [hconns, List.append_nil] at hperm
  rw [htokens] at hcount
  exact ⟨hperm, by rw [← hperm.length_eq, hcount, Nat.add_zero]⟩

end Pool

end VideoAdapter.Lib
