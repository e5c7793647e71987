import VideoAdapter.Http.EpollSocket

namespace VideoAdapter.Http

-- A connection as it is: its descriptor, what may come next on it, and what the watcher keeps.
structure Conn (State : Type*) where
  fd : Nat
  phase : Phase
  state : State

-- What a thread that has the address of a connection is about to do with it.
inductive Stage where
  | reading
  | writing
  | rearming (fd : Nat) (mask : Mask)
  | adding (fd : Nat)
  | closing
  | dropping
deriving DecidableEq, Repr

def Mask.phase : Mask → Phase
  | .epollin => .reading
  | .epollout => .writing

-- The stage agrees with the connection.
def Stage.Fits (fd : Nat) (phase : Phase) : Stage → Prop
  | .reading => phase = .reading
  | .writing => phase = .writing
  | .rearming fd' mask => fd = fd' ∧ phase = mask.phase
  | .adding fd' => fd = fd' ∧ phase = .reading
  | .closing => phase = .reading ∨ phase = .closing
  | .dropping => True

-- Who has what, without the threads: the connections by address, the epoll set, the open descriptors,
-- the addresses that threads have in custody, and the descriptors that belong to no connection yet or
-- no more.
structure Custody (State : Type*) where
  conns : List (Option (Conn State)) := []
  epoll : Nat → Option Registration := fun _ => none
  opened : Nat → Bool := fun _ => false
  tokens : List (Nat × Stage) := []
  loose : List Nat := []

namespace Custody

variable {State Input : Type*} (watcher : EpollSocketWatcher State Input)

-- The same but for the order of the lists.
structure Same (a b : Custody State) : Prop where
  conns_eq : b.conns = a.conns
  epoll_eq : b.epoll = a.epoll
  opened_eq : b.opened = a.opened
  tokens_perm : b.tokens.Perm a.tokens
  loose_perm : b.loose.Perm a.loose

theorem Same.refl (a : Custody State) : Same a a := ⟨rfl, rfl, rfl, List.Perm.refl _, List.Perm.refl _⟩

-- What the server may do with its connections; the one that it does it with stands first.
inductive Act (a : Custody State) : Option (Nat × Call Input) → Custody State → Prop
  | rest : Act a none a
  | deliver {fd ptr : Nat} {mask : Mask} {stage : Stage}
      (harmed : a.epoll fd = some { ptr := ptr, armed := some mask })
      (hstage : stage = .dropping ∨ mask = .epollin ∧ stage = .reading ∨
        mask = .epollout ∧ stage = .writing) :
      Act a none { a with
        epoll := Function.update a.epoll fd (some { ptr := ptr, armed := none })
        tokens := (ptr, stage) :: a.tokens }
  | drop {ptr : Nat} {others : List (Nat × Stage)} (htokens : a.tokens = (ptr, .dropping) :: others) :
      Act a none { a with tokens := others }
  | refuse {ptr : Nat} {others : List (Nat × Stage)} (htokens : a.tokens = (ptr, .reading) :: others) :
      Act a none { a with tokens := (ptr, .closing) :: others }
  | read {ptr : Nat} {conn : Conn State} {input : Input} {stage : Stage} {others : List (Nat × Stage)}
      (hconn : a.conns[ptr]? = some (some conn)) (htokens : a.tokens = (ptr, .reading) :: others)
      (hstage : stage.Fits conn.fd (watcher.onReadable conn.state input).2.phase) :
      Act a (some (ptr, .onReadable input (watcher.onReadable conn.state input).2)) { a with
        conns := a.conns.set ptr (some { conn with
          phase := (watcher.onReadable conn.state input).2.phase
          state := (watcher.onReadable conn.state input).1 })
        tokens := (ptr, stage) :: others }
  | write {ptr : Nat} {conn : Conn State} {input : Input} {stage : Stage} {others : List (Nat × Stage)}
      (hconn : a.conns[ptr]? = some (some conn)) (htokens : a.tokens = (ptr, .writing) :: others)
      (hstage : stage.Fits conn.fd (watcher.onWriteable conn.state input).2.phase) :
      Act a (some (ptr, .onWriteable input (watcher.onWriteable conn.state input).2)) { a with
        conns := a.conns.set ptr (some { conn with
          phase := (watcher.onWriteable conn.state input).2.phase
          state := (watcher.onWriteable conn.state input).1 })
        tokens := (ptr, stage) :: others }
  | rearm {ptr fd : Nat} {mask : Mask} {others : List (Nat × Stage)}
      (htokens : a.tokens = (ptr, .rearming fd mask) :: others) :
      Act a none { a with
        epoll := Function.update a.epoll fd
          ((a.epoll fd).map fun _ => { ptr := ptr, armed := some mask })
        tokens := others }
  | add {ptr fd : Nat} {others : List (Nat × Stage)}
      (htokens : a.tokens = (ptr, .adding fd) :: others) :
      Act a none { a with
        epoll := Function.update a.epoll fd (some { ptr := ptr, armed := some .epollin })
        tokens := others }
  | release {ptr : Nat} {conn : Conn State} {others : List (Nat × Stage)}
      (hconn : a.conns[ptr]? = some (some conn)) (htokens : a.tokens = (ptr, .closing) :: others) :
      Act a (some (ptr, .onClose)) { a with
        conns := a.conns.set ptr none, epoll := Function.update a.epoll conn.fd none
        tokens := others, loose := conn.fd :: a.loose }
  | close {fd : Nat} {others : List Nat} (hloose : a.loose = fd :: others) :
      Act a none { a with opened := Function.update a.opened fd false, loose := others }
  | accept {fd : Nat} (hfd : a.opened fd = false) :
      Act a none { a with opened := Function.update a.opened fd true, loose := fd :: a.loose }
  | create {fd : Nat} {others : List Nat} (hloose : a.loose = fd :: others) :
      Act a (some (a.conns.length, .onAccept fd)) { a with
        conns := a.conns ++ [some { fd := fd, phase := .reading, state := watcher.onAccept fd }]
        tokens := (a.conns.length, .adding fd) :: a.tokens, loose := others }

def Step (a : Custody State) (label : Option (Nat × Call Input)) (b : Custody State) : Prop :=
  ∃ a' b', Same a a' ∧ Act watcher a' label b' ∧ Same b' b

-- An address is in the custody of one thread at most, its context is there and stands where that
-- thread believes; the kernel has no address whose context is gone, and while it may still fire for
-- one, no thread has it.
structure Valid (a : Custody State) : Prop where
  nodup : (a.tokens.map Prod.fst).Nodup
  held : ∀ (ptr : Nat) (stage : Stage), (ptr, stage) ∈ a.tokens →
    ∃ conn, a.conns[ptr]? = some (some conn) ∧ stage.Fits conn.fd conn.phase
  registered : ∀ fd registration, a.epoll fd = some registration →
    ∃ conn, a.conns[registration.ptr]? = some (some conn) ∧ conn.fd = fd ∧
      ∀ mask, registration.armed = some mask →
        registration.ptr ∉ a.tokens.map Prod.fst ∧ conn.phase = mask.phase
  known : ∀ (ptr : Nat) (conn : Conn State), a.conns[ptr]? = some (some conn) →
    (∃ registration, a.epoll conn.fd = some registration ∧ registration.ptr = ptr) ∨
      (ptr, .adding conn.fd) ∈ a.tokens
  opened : ∀ (ptr : Nat) (conn : Conn State), a.conns[ptr]? = some (some conn) →
    a.opened conn.fd = true ∧ conn.fd ∉ a.loose
  distinct : ∀ (ptr other : Nat) (conn conn' : Conn State), a.conns[ptr]? = some (some conn) →
    a.conns[other]? = some (some conn') → conn.fd = conn'.fd → ptr = other
  loose_nodup : a.loose.Nodup
  loose_opened : ∀ fd ∈ a.loose, a.opened fd = true

theorem valid_empty : Valid ({} : Custody State) where
  nodup := List.nodup_nil
  held := nofun
  registered := nofun
  known := fun ptr conn h => by simp at h
  opened := fun ptr conn h => by simp at h
  distinct := fun ptr other conn conn' h => by simp at h
  loose_nodup := List.nodup_nil
  loose_opened := nofun

section Valid

variable {watcher} {a : Custody State}

theorem Valid.perm (h : Valid a) {tokens : List (Nat × Stage)} (hperm : tokens.Perm a.tokens) :
    Valid { a with tokens := tokens } where
  nodup := ((hperm.map Prod.fst).nodup_iff).mpr h.nodup
  held := fun ptr stage hmem => h.held ptr stage (hperm.mem_iff.mp hmem)
  registered := fun fd registration hfd => by
    obtain ⟨conn, hconn, hsame, harmed⟩ := h.registered fd registration hfd
    refine ⟨conn, hconn, hsame, fun mask hmask => ?_⟩
    rw [(hperm.map Prod.fst).mem_iff]
    exact harmed mask hmask
  known := fun ptr conn hconn => (h.known ptr conn hconn).imp_right hperm.mem_iff.mpr
  opened := h.opened
  distinct := h.distinct
  loose_nodup := h.loose_nodup
  loose_opened := h.loose_opened

theorem Valid.permLoose (h : Valid a) {loose : List Nat} (hperm : loose.Perm a.loose) :
    Valid { a with loose := loose } where
  nodup := h.nodup
  held := h.held
  registered := h.registered
  known := h.known
  opened := fun ptr conn hconn => (h.opened ptr conn hconn).imp_right fun hfree hmem =>
    hfree (hperm.mem_iff.mp hmem)
  distinct := h.distinct
  loose_nodup := hperm.nodup_iff.mpr h.loose_nodup
  loose_opened := fun fd hmem => h.loose_opened fd (hperm.mem_iff.mp hmem)

variable {ptr : Nat} {stage : Stage} {conn : Conn State} {others : List (Nat × Stage)}

-- The thread that has a connection in custody may change it, all but its descriptor.
theorem Valid.change (h : Valid { a with tokens := (ptr, stage) :: others })
    (hconn : a.conns[ptr]? = some (some conn)) (hstage : ∀ fd, stage ≠ .adding fd)
    {changed : Conn State} (hfd : changed.fd = conn.fd) {next : Stage}
    (hfits : next.Fits changed.fd changed.phase) :
    Valid { a with
      conns := a.conns.set ptr (some changed), tokens := (ptr, next) :: others } := by
  have hlt := (List.getElem?_eq_some_iff.mp hconn).1
  -- a connection after the change is one before it, with the same descriptor
  have hback : ∀ (other : Nat) (new : Conn State),
      (a.conns.set ptr (some changed))[other]? = some (some new) →
        ∃ old : Conn State, a.conns[other]? = some (some old) ∧ old.fd = new.fd := by
    intro other new hother
    by_cases hsame : ptr = other
    · subst hsame
      rw [List.getElem?_set_self hlt] at hother
      cases hother
      exact ⟨conn, hconn, hfd.symm⟩
    · rw [List.getElem?_set_ne hsame] at hother
      exact ⟨new, hother, rfl⟩
  have hnodup := h.nodup
  simp only [List.map_cons, List.nodup_cons] at hnodup
  constructor
  · simpa only [List.map_cons, List.nodup_cons] using hnodup
  · intro other stage' hmem
    rcases List.mem_cons.mp hmem with heq | hmem
    · cases heq
      exact ⟨changed, List.getElem?_set_self hlt, hfits⟩
    · have hne : ptr ≠ other := by
        rintro rfl
        exact hnodup.1 (List.mem_map_of_mem hmem)
      rw [List.getElem?_set_ne hne]
      exact h.held other stage' (List.mem_cons_of_mem _ hmem)
  · intro fd registration hregistration
    obtain ⟨old, hold, hsame, harmed⟩ := h.registered fd registration hregistration
    by_cases heq : ptr = registration.ptr
    · refine ⟨changed, ?_, ?_, fun mask hmask => ?_⟩
      · rw [← heq]
        exact List.getElem?_set_self hlt
      · rw [← heq] at hold
        cases hconn.symm.trans hold
        rw [hfd, hsame]
      · -- what a thread has in custody is not armed
        exact absurd (by rw [← heq]; exact List.mem_cons_self) (harmed mask hmask).1
    · refine ⟨old, by rw [List.getElem?_set_ne heq]; exact hold, hsame, fun mask hmask => ?_⟩
      exact harmed mask hmask
  · intro other new hother
    obtain ⟨old, hold, hsame⟩ := hback other new hother
    rw [← hsame]
    refine (h.known other old hold).imp_right fun hmem => ?_
    rcases List.mem_cons.mp hmem with heq | hmem
    · cases heq
      exact absurd rfl (hstage _)
    · exact List.mem_cons_of_mem _ hmem
  · intro other new hother
    obtain ⟨old, hold, hsame⟩ := hback other new hother
    rw [← hsame]
    exact h.opened other old hold
  · intro other other' new new' hother hother' hsame
    obtain ⟨old, hold, hfd₁⟩ := hback other new hother
    obtain ⟨old', hold', hfd₂⟩ := hback other' new' hother'
    exact h.distinct other other' old old' hold hold' (by rw [hfd₁, hfd₂, hsame])
  · exact h.loose_nodup
  · exact h.loose_opened

-- The one that has a connection in custody, and is not adding it, finds it in the epoll set.
theorem Valid.registered_of_held (h : Valid { a with tokens := (ptr, stage) :: others })
    (hconn : a.conns[ptr]? = some (some conn)) (hstage : ∀ fd, stage ≠ .adding fd) :
    ∃ registration, a.epoll conn.fd = some registration ∧ registration.ptr = ptr := by
  rcases h.known ptr conn hconn with hregistered | hmem
  · exact hregistered
  · have hnodup := h.nodup
    simp only [List.map_cons, List.nodup_cons] at hnodup
    rcases List.mem_cons.mp hmem with heq | hmem
    · cases heq
      exact absurd rfl (hstage _)
    · exact absurd (List.mem_map_of_mem hmem) hnodup.1

-- It may give it back to the kernel.
theorem Valid.arm (h : Valid { a with tokens := (ptr, stage) :: others })
    (hconn : a.conns[ptr]? = some (some conn)) {mask : Mask} (hphase : conn.phase = mask.phase) :
    Valid { a with
      epoll := Function.update a.epoll conn.fd (some { ptr := ptr, armed := some mask })
      tokens := others } := by
  have hnodup := h.nodup
  simp only [List.map_cons, List.nodup_cons] at hnodup
  constructor
  · exact hnodup.2
  · exact fun other stage' hmem => h.held other stage' (List.mem_cons_of_mem _ hmem)
  · intro fd registration hregistration
    by_cases hfd : fd = conn.fd
    · subst hfd
      simp only [Function.update_self, Option.some.injEq] at hregistration
      subst hregistration
      refine ⟨conn, hconn, rfl, fun mask' hmask => ?_⟩
      cases hmask
      exact ⟨hnodup.1, hphase⟩
    · simp only [Function.update_of_ne hfd] at hregistration
      obtain ⟨old, hold, hsame, harmed⟩ := h.registered fd registration hregistration
      refine ⟨old, hold, hsame, fun mask' hmask => ?_⟩
      obtain ⟨hfree, hphase'⟩ := harmed mask' hmask
      exact ⟨fun hmem => hfree (List.mem_cons_of_mem _ hmem), hphase'⟩
  · intro other old hold
    by_cases hfd : old.fd = conn.fd
    · obtain rfl := h.distinct other ptr old conn hold hconn hfd
      cases hconn.symm.trans hold
      exact .inl ⟨_, Function.update_self .., rfl⟩
    · simp only [Function.update_of_ne hfd]
      refine (h.known other old hold).imp_right fun hmem => ?_
      rcases List.mem_cons.mp hmem with heq | hmem
      · cases heq
        cases hconn.symm.trans hold
        exact absurd rfl hfd
      · exact hmem
  · exact h.opened
  · exact h.distinct
  · exact h.loose_nodup
  · exact h.loose_opened

-- The one shot of the kernel puts it into custody.
theorem Valid.disarm (h : Valid a) {fd : Nat} {mask : Mask}
    (harmed : a.epoll fd = some { ptr := ptr, armed := some mask })
    (hstage : stage = .dropping ∨ mask = .epollin ∧ stage = .reading ∨
      mask = .epollout ∧ stage = .writing) :
    Valid { a with
      epoll := Function.update a.epoll fd (some { ptr := ptr, armed := none })
      tokens := (ptr, stage) :: a.tokens } := by
  obtain ⟨conn, hconn, rfl, hmask⟩ := h.registered fd _ harmed
  obtain ⟨hfree, hphase⟩ := hmask mask rfl
  constructor
  · exact List.nodup_cons.mpr ⟨hfree, h.nodup⟩
  · intro other stage' hmem
    rcases List.mem_cons.mp hmem with heq | hmem
    · cases heq
      refine ⟨conn, hconn, ?_⟩
      rcases hstage with rfl | ⟨rfl, rfl⟩ | ⟨rfl, rfl⟩
      · trivial
      · exact hphase
      · exact hphase
    · exact h.held other stage' hmem
  · intro fd registration hregistration
    by_cases hfd : fd = conn.fd
    · subst hfd
      simp only [Function.update_self, Option.some.injEq] at hregistration
      subst hregistration
      exact ⟨conn, hconn, rfl, nofun⟩
    · simp only [Function.update_of_ne hfd] at hregistration
      obtain ⟨old, hold, hsame, harmed'⟩ := h.registered fd registration hregistration
      refine ⟨old, hold, hsame, fun mask' hmask' => ?_⟩
      obtain ⟨hfree', hphase'⟩ := harmed' mask' hmask'
      refine ⟨fun hmem => ?_, hphase'⟩
      rcases List.mem_cons.mp hmem with heq | hmem
      · -- an address is registered for one descriptor only
        rw [heq, hconn] at hold
        cases hold
        exact hfd hsame.symm
      · exact hfree' hmem
  · intro other old hold
    by_cases hfd : old.fd = conn.fd
    · obtain rfl := h.distinct other ptr old conn hold hconn hfd
      rw [hfd]
      exact .inl ⟨_, Function.update_self .., rfl⟩
    · simp only [Function.update_of_ne hfd]
      exact (h.known other old hold).imp_right (List.mem_cons_of_mem _)
  · exact h.opened
  · exact h.distinct
  · exact h.loose_nodup
  · exact h.loose_opened

theorem Valid.drop (h : Valid { a with tokens := (ptr, stage) :: others })
    (hstage : ∀ fd, stage ≠ .adding fd) : Valid { a with tokens := others } := by
  have hnodup := h.nodup
  simp only [List.map_cons, List.nodup_cons] at hnodup
  constructor
  · exact hnodup.2
  · exact fun other stage' hmem => h.held other stage' (List.mem_cons_of_mem _ hmem)
  · intro fd registration hregistration
    obtain ⟨old, hold, hsame, harmed⟩ := h.registered fd registration hregistration
    refine ⟨old, hold, hsame, fun mask hmask => ?_⟩
    obtain ⟨hfree, hphase⟩ := harmed mask hmask
    exact ⟨fun hmem => hfree (List.mem_cons_of_mem _ hmem), hphase⟩
  · intro other old hold
    refine (h.known other old hold).imp_right fun hmem => ?_
    rcases List.mem_cons.mp hmem with heq | hmem
    · cases heq
      exact absurd rfl (hstage _)
    · exact hmem
  · exact h.opened
  · exact h.distinct
  · exact h.loose_nodup
  · exact h.loose_opened

-- The thread that closes a connection leaves nothing behind that points at it.
theorem Valid.free (h : Valid { a with tokens := (ptr, .closing) :: others })
    (hconn : a.conns[ptr]? = some (some conn)) :
    Valid { a with
      conns := a.conns.set ptr none, epoll := Function.update a.epoll conn.fd none
      tokens := others, loose := conn.fd :: a.loose } := by
  have hlt := (List.getElem?_eq_some_iff.mp hconn).1
  have hnodup := h.nodup
  simp only [List.map_cons, List.nodup_cons] at hnodup
  have hback : ∀ (other : Nat) (new : Conn State), (a.conns.set ptr none)[other]? = some (some new) →
      other ≠ ptr ∧ a.conns[other]? = some (some new) := by
    intro other new hother
    by_cases hsame : ptr = other
    · subst hsame
      rw [List.getElem?_set_self hlt] at hother
      cases hother
    · rw [List.getElem?_set_ne hsame] at hother
      exact ⟨Ne.symm hsame, hother⟩
  have hapart : ∀ (other : Nat) (new : Conn State), (a.conns.set ptr none)[other]? = some (some new) →
      new.fd ≠ conn.fd := by
    intro other new hother hfd
    obtain ⟨hne, hold⟩ := hback other new hother
    exact hne (h.distinct other ptr new conn hold hconn hfd)
  obtain ⟨hopen, hfree⟩ := h.opened ptr conn hconn
  constructor
  · exact hnodup.2
  · intro other stage' hmem
    have hne : ptr ≠ other := by
      rintro rfl
      exact hnodup.1 (List.mem_map_of_mem hmem)
    rw [List.getElem?_set_ne hne]
    exact h.held other stage' (List.mem_cons_of_mem _ hmem)
  · intro fd registration hregistration
    by_cases hfd : fd = conn.fd
    · subst hfd
      simp only [Function.update_self, reduceCtorEq] at hregistration
    · simp only [Function.update_of_ne hfd] at hregistration
      obtain ⟨old, hold, hsame, harmed⟩ := h.registered fd registration hregistration
      refine ⟨old, ?_, hsame, fun mask hmask => ?_⟩
      · rw [List.getElem?_set_ne]
        · exact hold
        · intro heq
          rw [← heq] at hold
          cases hconn.symm.trans hold
          exact hfd hsame.symm
      · obtain ⟨hfree', hphase⟩ := harmed mask hmask
        exact ⟨fun hmem => hfree' (List.mem_cons_of_mem _ hmem), hphase⟩
  · intro other new hother
    obtain ⟨hne, hold⟩ := hback other new hother
    simp only [Function.update_of_ne (hapart other new hother)]
    refine (h.known other new hold).imp_right fun hmem => ?_
    rcases List.mem_cons.mp hmem with heq | hmem
    · cases heq
    · exact hmem
  · intro other new hother
    obtain ⟨hopen', hfree'⟩ := h.opened other new (hback other new hother).2
    refine ⟨hopen', fun hmem => ?_⟩
    rcases List.mem_cons.mp hmem with heq | hmem
    · exact hapart other new hother heq
    · exact hfree' hmem
  · exact fun other other' new new' hother hother' hsame =>
      h.distinct other other' new new' (hback other new hother).2 (hback other' new' hother').2 hsame
  · exact List.nodup_cons.mpr ⟨hfree, h.loose_nodup⟩
  · intro fd hmem
    rcases List.mem_cons.mp hmem with rfl | hmem
    · exact hopen
    · exact h.loose_opened fd hmem

theorem Valid.close {fd : Nat} {loose : List Nat} (h : Valid { a with loose := fd :: loose }) :
    Valid { a with opened := Function.update a.opened fd false, loose := loose } := by
  obtain ⟨hfresh, hnodup⟩ := List.nodup_cons.mp h.loose_nodup
  have hother : ∀ fd' : Nat, fd' ≠ fd → Function.update a.opened fd false fd' = a.opened fd' :=
    fun fd' hne => Function.update_of_ne hne ..
  refine ⟨h.nodup, h.held, h.registered, h.known, ?_, h.distinct, hnodup, ?_⟩
  · intro other conn hconn
    obtain ⟨hopen, hfree⟩ := h.opened other conn hconn
    refine ⟨?_, fun hmem => hfree (List.mem_cons_of_mem _ hmem)⟩
    exact (hother _ fun heq => hfree (heq ▸ List.mem_cons_self)).trans hopen
  · intro fd' hmem
    have hne : fd' ≠ fd := fun heq => hfresh (heq ▸ hmem)
    exact (hother _ hne).trans (h.loose_opened fd' (List.mem_cons_of_mem _ hmem))

theorem Valid.accept (h : Valid a) {fd : Nat} (hfd : a.opened fd = false) :
    Valid { a with opened := Function.update a.opened fd true, loose := fd :: a.loose } := by
  have hopens : ∀ fd' : Nat, a.opened fd' = true → fd' ≠ fd ∧
      Function.update a.opened fd true fd' = true := by
    intro fd' hopen
    have hne : fd' ≠ fd := by
      rintro rfl
      rw [hfd] at hopen
      cases hopen
    exact ⟨hne, (Function.update_of_ne hne ..).trans hopen⟩
  refine ⟨h.nodup, h.held, h.registered, h.known, ?_, h.distinct, ?_, ?_⟩
  · intro other conn hconn
    obtain ⟨hopen, hfree⟩ := h.opened other conn hconn
    obtain ⟨hne, hopen'⟩ := hopens _ hopen
    exact ⟨hopen', fun hmem => (List.mem_cons.mp hmem).elim hne hfree⟩
  · refine List.nodup_cons.mpr ⟨fun hmem => ?_, h.loose_nodup⟩
    exact (hopens fd (h.loose_opened fd hmem)).1 rfl
  · intro fd' hmem
    rcases List.mem_cons.mp hmem with rfl | hmem
    · exact Function.update_self ..
    · exact (hopens fd' (h.loose_opened fd' hmem)).2

-- A new connection takes over its descriptor and gets an address that nobody has.
theorem Valid.create {fd : Nat} {loose : List Nat} (h : Valid { a with loose := fd :: loose })
    (state : State) :
    Valid { a with
      conns := a.conns ++ [some { fd := fd, phase := .reading, state := state }]
      tokens := (a.conns.length, .adding fd) :: a.tokens, loose := loose } := by
  obtain ⟨hfresh, hnodup⟩ := List.nodup_cons.mp h.loose_nodup
  have hkept : ∀ (other : Nat) (old : Conn State), a.conns[other]? = some (some old) →
      (a.conns ++ [some { fd := fd, phase := .reading, state := state }])[other]? = some (some old) := by
    intro other old hold
    rw [List.getElem?_append_left (List.getElem?_eq_some_iff.mp hold).1]
    exact hold
  have hback : ∀ (other : Nat) (new : Conn State),
      (a.conns ++ [some { fd := fd, phase := .reading, state := state }])[other]? = some (some new) →
      a.conns[other]? = some (some new) ∧ new.fd ≠ fd ∨
        other = a.conns.length ∧ new = { fd := fd, phase := .reading, state := state } := by
    intro other new hother
    by_cases hlt : other < a.conns.length
    · rw [List.getElem?_append_left hlt] at hother
      refine .inl ⟨hother, fun heq => ?_⟩
      exact (h.opened other new hother).2 (heq ▸ List.mem_cons_self)
    · rw [List.getElem?_append_right (by omega), List.getElem?_singleton] at hother
      split at hother
      · next hzero =>
          cases hother
          exact .inr ⟨by omega, rfl⟩
      · cases hother
  have hunheld : a.conns.length ∉ a.tokens.map Prod.fst := by
    intro hmem
    obtain ⟨⟨ptr, stage⟩, hmem, rfl⟩ := List.mem_map.mp hmem
    obtain ⟨conn, hconn, -⟩ := h.held _ _ hmem
    exact absurd (List.getElem?_eq_some_iff.mp hconn).1 (Nat.lt_irrefl _)
  constructor
  · exact List.nodup_cons.mpr ⟨hunheld, h.nodup⟩
  · intro other stage' hmem
    rcases List.mem_cons.mp hmem with heq | hmem
    · cases heq
      exact ⟨_, List.getElem?_concat_length, rfl, rfl⟩
    · obtain ⟨old, hold, hfits⟩ := h.held other stage' hmem
      exact ⟨old, hkept other old hold, hfits⟩
  · intro fd' registration hregistration
    obtain ⟨old, hold, hsame, harmed⟩ := h.registered fd' registration hregistration
    refine ⟨old, hkept _ old hold, hsame, fun mask hmask => ?_⟩
    obtain ⟨hfree, hphase⟩ := harmed mask hmask
    refine ⟨fun hmem => ?_, hphase⟩
    rcases List.mem_cons.mp hmem with heq | hmem
    · have hlt := (List.getElem?_eq_some_iff.mp hold).1
      dsimp only at heq hlt
      omega
    · exact hfree hmem
  · intro other new hother
    rcases hback other new hother with ⟨hold, -⟩ | ⟨rfl, rfl⟩
    · exact (h.known other new hold).imp_right (List.mem_cons_of_mem _)
    · exact .inr List.mem_cons_self
  · intro other new hother
    rcases hback other new hother with ⟨hold, -⟩ | ⟨rfl, rfl⟩
    · exact (h.opened other new hold).imp_right fun hfree hmem => hfree (List.mem_cons_of_mem _ hmem)
    · exact ⟨h.loose_opened fd List.mem_cons_self, hfresh⟩
  · intro other other' new new' hother hother' hsame
    rcases hback other new hother with ⟨hold, hne⟩ | ⟨rfl, rfl⟩
    · rcases hback other' new' hother' with ⟨hold', -⟩ | ⟨rfl, rfl⟩
      · exact h.distinct other other' new new' hold hold' hsame
      · exact absurd hsame hne
    · rcases hback other' new' hother' with ⟨-, hne⟩ | ⟨rfl, rfl⟩
      · exact absurd hsame.symm hne
      · rfl
  · exact hnodup
  · exact fun fd' hmem => h.loose_opened fd' (List.mem_cons_of_mem _ hmem)

theorem Valid.front (h : Valid a) {tokens : List (Nat × Stage)} (htokens : a.tokens = tokens) :
    Valid { a with tokens := tokens } := by
  subst htokens
  exact h

theorem Valid.frontLoose (h : Valid a) {loose : List Nat} (hloose : a.loose = loose) :
    Valid { a with loose := loose } := by
  subst hloose
  exact h

-- The order of the lists does not matter.
theorem Valid.same {b : Custody State} (h : Valid a) (hsame : Same a b) : Valid b := by
  obtain ⟨conns, epoll, opened, tokens, loose⟩ := b
  obtain ⟨rfl, rfl, rfl, htokens, hloose⟩ := hsame
  exact (h.perm htokens).permLoose hloose

-- Whatever the server does keeps the custody.
theorem Act.valid {b : Custody State} {label : Option (Nat × Call Input)}
    (h : Valid a) (act : Act watcher a label b) : Valid b := by
  cases act with
  | rest => exact h
  | deliver harmed hstage => exact h.disarm harmed hstage
  | drop htokens => exact (h.front htokens).drop nofun
  | @refuse ptr others htokens =>
      obtain ⟨conn, hconn, hphase⟩ := (h.front htokens).held _ _ List.mem_cons_self
      have hfits : Stage.closing.Fits conn.fd conn.phase := .inl hphase
      have hnext := (h.front htokens).change hconn nofun rfl hfits
      have hsame : a.conns.set ptr (some conn) = a.conns := by
        obtain ⟨hlt, heq⟩ := List.getElem?_eq_some_iff.mp hconn
        rw [← heq]
        exact List.set_getElem_self hlt
      rw [hsame] at hnext
      exact hnext
  | read hconn htokens hstage =>
      refine (h.front htokens).change hconn nofun ?_ ?_
      · rfl
      · exact hstage
  | write hconn htokens hstage =>
      refine (h.front htokens).change hconn nofun ?_ ?_
      · rfl
      · exact hstage
  | @rearm ptr fd mask others htokens =>
      have h' := h.front htokens
      obtain ⟨conn, hconn, rfl, hphase⟩ := h'.held ptr _ List.mem_cons_self
      obtain ⟨registration, hregistration, -⟩ := h'.registered_of_held hconn nofun
      have hnext := h'.arm hconn hphase
      rw [show a.epoll conn.fd = some registration from hregistration]
      exact hnext
  | @add ptr fd others htokens =>
      have h' := h.front htokens
      obtain ⟨conn, hconn, rfl, hphase⟩ := h'.held ptr _ List.mem_cons_self
      have hreading : conn.phase = Mask.epollin.phase := hphase
      exact h'.arm hconn hreading
  | release hconn htokens => exact (h.front htokens).free hconn
  | close hloose => exact (h.frontLoose hloose).close
  | accept hfd => exact h.accept hfd
  | create hloose => exact (h.frontLoose hloose).create _

theorem Step.valid {b : Custody State} {label : Option (Nat × Call Input)} (h : Valid a)
    (step : Step watcher a label b) : Valid b := by
  obtain ⟨a', b', hbefore, hact, hafter⟩ := step
  exact (hact.valid (h.same hbefore)).same hafter

end Valid

section Calls

variable {watcher}

-- The calls that were made for one address, oldest first.
def callsOf (ptr : Nat) (labels : List (Option (Nat × Call Input))) : List (Call Input) :=
  labels.reverse.filterMap fun label => label.bind fun call => if call.1 = ptr then some call.2 else none

theorem callsOf_none (ptr : Nat) (labels : List (Option (Nat × Call Input))) :
    callsOf ptr (none :: labels) = callsOf ptr labels := by
  simp [callsOf]

theorem callsOf_self (ptr : Nat) (call : Call Input) (labels : List (Option (Nat × Call Input))) :
    callsOf ptr (some (ptr, call) :: labels) = callsOf ptr labels ++ [call] := by
  simp [callsOf]

theorem callsOf_other {ptr other : Nat} (h : other ≠ ptr) (call : Call Input)
    (labels : List (Option (Nat × Call Input))) :
    callsOf ptr (some (other, call) :: labels) = callsOf ptr labels := by
  simp [callsOf, h]

-- What stands at an address, as a session.
def session (a : Custody State) (ptr : Nat) : Session State :=
  match a.conns[ptr]? with
  | none => .absent
  | some none => .closed
  | some (some conn) => .live conn.phase conn.state

-- The calls for each address are those of one connection on its own, and have led to what stands
-- there.
def Sequential (watcher : EpollSocketWatcher State Input)
    (labels : List (Option (Nat × Call Input))) (a : Custody State) : Prop :=
  ∀ ptr, Session.follow watcher (callsOf ptr labels) = some (a.session ptr)

theorem sequential_empty : Sequential watcher [] ({} : Custody State) := fun _ => rfl

-- A call changes what stands at its own address, in the way the session says.
theorem Sequential.call {labels : List (Option (Nat × Call Input))} {a b : Custody State} {ptr : Nat}
    {call : Call Input} (h : Sequential watcher labels a)
    (hcall : Session.next watcher (a.session ptr) call = some (b.session ptr))
    (hothers : ∀ other, other ≠ ptr → b.session other = a.session other) :
    Sequential watcher (some (ptr, call) :: labels) b := by
  intro other
  by_cases hsame : ptr = other
  · subst hsame
    rw [callsOf_self, Session.follow_concat watcher (h ptr), hcall]
  · rw [callsOf_other hsame, h other, hothers other (Ne.symm hsame)]

theorem session_set {a b : Custody State} {ptr : Nat} {cell : Option (Conn State)}
    (hconns : b.conns = a.conns.set ptr cell) {other : Nat} (hne : other ≠ ptr) :
    b.session other = a.session other := by
  rw [session, session, hconns, List.getElem?_set_ne (Ne.symm hne)]

theorem session_of_live {a : Custody State} {ptr : Nat} {conn : Conn State}
    (hconn : a.conns[ptr]? = some (some conn)) : a.session ptr = .live conn.phase conn.state := by
  rw [session, hconn]

theorem Act.sequential {labels : List (Option (Nat × Call Input))} {a b : Custody State}
    {label : Option (Nat × Call Input)} (hvalid : Valid a) (h : Sequential watcher labels a)
    (act : Act watcher a label b) : Sequential watcher (label :: labels) b := by
  -- the phase of the connection that a thread has in custody
  have hheld : ∀ {ptr : Nat} {stage : Stage} {conn : Conn State} {others : List (Nat × Stage)},
      a.tokens = (ptr, stage) :: others → a.conns[ptr]? = some (some conn) →
        stage.Fits conn.fd conn.phase := by
    intro ptr stage conn others htokens hconn
    obtain ⟨conn', hconn', hfits⟩ := (hvalid.front htokens).held _ _ List.mem_cons_self
    cases hconn.symm.trans hconn'
    exact hfits
  cases act with
  | @read ptr conn input stage others hconn htokens hstage =>
      refine h.call ?_ fun other hne => session_set rfl hne
      have hlt := (List.getElem?_eq_some_iff.mp hconn).1
      have hphase : conn.phase = .reading := hheld htokens hconn
      rw [session_of_live hconn, session_of_live (List.getElem?_set_self hlt), hphase]
      exact if_pos rfl
  | @write ptr conn input stage others hconn htokens hstage =>
      refine h.call ?_ fun other hne => session_set rfl hne
      have hlt := (List.getElem?_eq_some_iff.mp hconn).1
      have hphase : conn.phase = .writing := hheld htokens hconn
      rw [session_of_live hconn, session_of_live (List.getElem?_set_self hlt), hphase]
      exact if_pos rfl
  | @release ptr conn others hconn htokens =>
      refine h.call ?_ fun other hne => session_set rfl hne
      have hlt := (List.getElem?_eq_some_iff.mp hconn).1
      rw [session_of_live hconn, session, List.getElem?_set_self hlt]
      rcases hheld htokens hconn with hphase | hphase <;> rw [hphase] <;> rfl
  | @create fd others hloose =>
      refine h.call ?_ fun other hne => ?_
      · rw [session, session, List.getElem?_eq_none (Nat.le_refl _), List.getElem?_concat_length]
        rfl
      · simp only [session]
        by_cases hlt : other < a.conns.length
        · rw [List.getElem?_append_left hlt]
        · have hnone : a.conns[other]? = none := List.getElem?_eq_none (by omega)
          rw [List.getElem?_append_right (by omega), hnone, List.getElem?_singleton,
            if_neg (by omega)]
  | _ =>
      intro ptr
      rw [callsOf_none]
      exact h ptr

theorem Sequential.same {labels : List (Option (Nat × Call Input))} {a b : Custody State}
    (h : Sequential watcher labels a) (hsame : Same a b) : Sequential watcher labels b := by
  intro ptr
  rw [h ptr, session, session, hsame.conns_eq]

theorem Step.sequential {labels : List (Option (Nat × Call Input))} {a b : Custody State}
    {label : Option (Nat × Call Input)} (hvalid : Valid a) (h : Sequential watcher labels a)
    (step : Step watcher a label b) : Sequential watcher (label :: labels) b := by
  obtain ⟨a', b', hbefore, hact, hafter⟩ := step
  exact (hact.sequential (hvalid.same hbefore) (h.same hbefore)).same hafter

end Calls

section Attended

variable {watcher} {a b : Custody State} {label : Option (Nat × Call Input)} {ptr : Nat} {conn : Conn State}

-- A thread has the connection in custody, or the kernel still is to fire for it.
def Attended (a : Custody State) (ptr : Nat) (conn : Conn State) : Prop :=
  ptr ∈ a.tokens.map Prod.fst ∨ ∃ mask, a.epoll conn.fd = some { ptr := ptr, armed := some mask }

-- Nobody has it, and its one shot is spent.
structure Abandoned (a : Custody State) (ptr : Nat) (conn : Conn State) : Prop where
  there : a.conns[ptr]? = some (some conn)
  unheld : ptr ∉ a.tokens.map Prod.fst
  spent : a.epoll conn.fd = some { ptr := ptr, armed := none }

theorem Same.tokens_iff {a b : Custody State} (hsame : Same a b) :
    ptr ∈ b.tokens.map Prod.fst ↔ ptr ∈ a.tokens.map Prod.fst :=
  (hsame.tokens_perm.map Prod.fst).mem_iff

theorem Attended.same (h : Attended a ptr conn) (hsame : Same a b) : Attended b ptr conn := by
  rw [Attended, hsame.tokens_iff, hsame.epoll_eq]
  exact h

theorem Abandoned.same (h : Abandoned a ptr conn) (hsame : Same a b) : Abandoned b ptr conn where
  there := hsame.conns_eq ▸ h.there
  unheld := mt hsame.tokens_iff.mp h.unheld
  spent := hsame.epoll_eq ▸ h.spent

-- What happens to another connection and its descriptor leaves it attended.
theorem Attended.elsewhere (h : Attended a ptr conn) (hvalid : Valid a)
    (hconn : a.conns[ptr]? = some (some conn)) {other : Nat} {old : Conn State}
    (hold : a.conns[other]? = some (some old)) (hne : other ≠ ptr) {stage : Stage}
    {others : List (Nat × Stage)} (htokens : a.tokens = (other, stage) :: others)
    (conns : List (Option (Conn State))) (registration : Option Registration) (loose : List Nat) :
    Attended { a with
      conns := conns, epoll := Function.update a.epoll old.fd registration
      tokens := others, loose := loose } ptr conn := by
  rcases h with hmem | ⟨mask, harmed⟩
  · rw [htokens] at hmem
    exact .inl ((List.mem_cons.mp hmem).resolve_left (Ne.symm hne))
  · have hfd : conn.fd ≠ old.fd := fun heq => hne (hvalid.distinct _ _ _ _ hconn hold heq).symm
    exact .inr ⟨mask, (Function.update_of_ne hfd ..).trans harmed⟩

-- A call for a connection leaves it in custody, and the others as they were.
theorem Attended.call {other : Nat} {stage next : Stage} {others : List (Nat × Stage)}
    {changed : Conn State}
    (h : ∀ (ptr : Nat) (conn : Conn State), a.conns[ptr]? = some (some conn) → Attended a ptr conn)
    (htokens : a.tokens = (other, stage) :: others)
    (hconn : (a.conns.set other (some changed))[ptr]? = some (some conn)) :
    Attended { a with
      conns := a.conns.set other (some changed), tokens := (other, next) :: others } ptr conn := by
  by_cases hsame : other = ptr
  · subst hsame
    exact .inl List.mem_cons_self
  · rw [List.getElem?_set_ne hsame] at hconn
    refine (h ptr conn hconn).imp_left fun hmem => ?_
    rw [htokens] at hmem
    exact hmem

-- What is dropped is the only thing that can be lost.
theorem Act.attended (hvalid : Valid a) (hkept : ∀ ptr, (ptr, Stage.dropping) ∉ a.tokens)
    (h : ∀ (ptr : Nat) (conn : Conn State), a.conns[ptr]? = some (some conn) → Attended a ptr conn)
    (act : Act watcher a label b) (ptr : Nat) (conn : Conn State)
    (hconn : b.conns[ptr]? = some (some conn)) : Attended b ptr conn := by
  cases act with
  | rest => exact h ptr conn hconn
  | @deliver fd other mask stage harmed hstage =>
      rcases h ptr conn hconn with hmem | ⟨mask', harmed'⟩
      · exact .inl (List.mem_cons_of_mem _ hmem)
      · by_cases hfd : conn.fd = fd
        · subst hfd
          rw [harmed] at harmed'
          cases harmed'
          exact .inl List.mem_cons_self
        · exact .inr ⟨mask', (Function.update_of_ne hfd ..).trans harmed'⟩
  | drop htokens => exact absurd (htokens ▸ List.mem_cons_self) (hkept _)
  | refuse htokens =>
      refine (h ptr conn hconn).imp_left fun hmem => ?_
      rw [htokens] at hmem
      exact hmem
  | read hold htokens hstage => exact .call h htokens hconn
  | write hold htokens hstage => exact .call h htokens hconn
  | @rearm other fd mask others htokens =>
      obtain ⟨old, hold, rfl, hphase⟩ := (hvalid.front htokens).held _ _ List.mem_cons_self
      by_cases hsame : other = ptr
      · subst hsame
        cases hconn.symm.trans hold
        obtain ⟨registration, hregistration, -⟩ := (hvalid.front htokens).registered_of_held hold nofun
        have hepoll : a.epoll conn.fd = some registration := hregistration
        refine .inr ⟨mask, (Function.update_self ..).trans ?_⟩
        rw [hepoll]
        rfl
      · exact (h ptr conn hconn).elsewhere hvalid hconn hold hsame htokens _ _ _
  | @add other fd others htokens =>
      obtain ⟨old, hold, rfl, hphase⟩ := (hvalid.front htokens).held _ _ List.mem_cons_self
      by_cases hsame : other = ptr
      · subst hsame
        cases hconn.symm.trans hold
        exact .inr ⟨.epollin, Function.update_self ..⟩
      · exact (h ptr conn hconn).elsewhere hvalid hconn hold hsame htokens _ _ _
  | @release other old others hold htokens =>
      by_cases hsame : other = ptr
      · subst hsame
        rw [List.getElem?_set_self (List.getElem?_eq_some_iff.mp hold).1] at hconn
        cases hconn
      · rw [List.getElem?_set_ne hsame] at hconn
        exact (h ptr conn hconn).elsewhere hvalid hconn hold hsame htokens _ _ _
  | close hloose => exact h ptr conn hconn
  | accept hfd => exact h ptr conn hconn
  | @create fd others hloose =>
      by_cases hlt : ptr < a.conns.length
      · rw [List.getElem?_append_left hlt] at hconn
        exact (h ptr conn hconn).imp_left (List.mem_cons_of_mem _)
      · obtain rfl : ptr = a.conns.length := by
          have hlength := (List.getElem?_eq_some_iff.mp hconn).1
          rw [List.length_append, List.length_singleton] at hlength
          omega
        exact .inl List.mem_cons_self

theorem Step.attended (hvalid : Valid a) (hkept : ∀ ptr, (ptr, Stage.dropping) ∉ a.tokens)
    (h : ∀ (ptr : Nat) (conn : Conn State), a.conns[ptr]? = some (some conn) → Attended a ptr conn)
    (step : Step watcher a label b) (ptr : Nat) (conn : Conn State)
    (hconn : b.conns[ptr]? = some (some conn)) : Attended b ptr conn := by
  obtain ⟨a', b', hbefore, hact, hafter⟩ := step
  refine (hact.attended (hvalid.same hbefore) ?_ ?_ ptr conn ?_).same hafter
  · exact fun ptr hmem => hkept ptr (hbefore.tokens_perm.mem_iff.mp hmem)
  · exact fun ptr conn hconn => (h ptr conn (hbefore.conns_eq ▸ hconn)).same hbefore
  · rw [← hafter.conns_eq]
    exact hconn

-- What happens to another connection and its descriptor leaves it abandoned.
theorem Abandoned.elsewhere (h : Abandoned a ptr conn) (hvalid : Valid a) {other : Nat}
    {old : Conn State} {stage : Stage} {others : List (Nat × Stage)}
    (hold : a.conns[other]? = some (some old)) (htokens : a.tokens = (other, stage) :: others) :
    other ≠ ptr ∧ conn.fd ≠ old.fd ∧ ptr ∉ others.map Prod.fst := by
  have hunheld := h.unheld
  rw [htokens, List.map_cons, List.mem_cons, not_or] at hunheld
  obtain ⟨hne, hfree⟩ := hunheld
  exact ⟨Ne.symm hne, fun heq => hne (hvalid.distinct _ _ _ _ h.there hold heq), hfree⟩

-- Nothing that the server does comes back to it.
theorem Act.abandoned (hvalid : Valid a) (h : Abandoned a ptr conn) (act : Act watcher a label b) :
    Abandoned b ptr conn ∧ ∀ call, label ≠ some (ptr, call) := by
  obtain ⟨hthere, hunheld, hspent⟩ := h
  cases act with
  | rest => exact ⟨⟨hthere, hunheld, hspent⟩, nofun⟩
  | @deliver fd other mask stage harmed hstage =>
      have hfd : conn.fd ≠ fd := by
        rintro rfl
        rw [harmed] at hspent
        cases hspent
      obtain ⟨old, hold, rfl, -⟩ := hvalid.registered fd _ harmed
      refine ⟨⟨hthere, ?_, (Function.update_of_ne hfd ..).trans hspent⟩, nofun⟩
      rw [List.map_cons, List.mem_cons, not_or]
      refine ⟨?_, hunheld⟩
      rintro rfl
      cases hthere.symm.trans hold
      exact hfd rfl
  | drop htokens =>
      rw [htokens, List.map_cons, List.mem_cons, not_or] at hunheld
      exact ⟨⟨hthere, hunheld.2, hspent⟩, nofun⟩
  | refuse htokens =>
      rw [htokens, List.map_cons] at hunheld
      exact ⟨⟨hthere, hunheld, hspent⟩, nofun⟩
  | read hold htokens hstage =>
      obtain ⟨hne, -, hfree⟩ := Abandoned.elsewhere ⟨hthere, hunheld, hspent⟩ hvalid hold htokens
      refine ⟨⟨?_, ?_, hspent⟩, fun call heq => hne ?_⟩
      · rw [List.getElem?_set_ne hne]
        exact hthere
      · rw [List.map_cons, List.mem_cons, not_or]
        exact ⟨Ne.symm hne, hfree⟩
      · cases heq
        rfl
  | write hold htokens hstage =>
      obtain ⟨hne, -, hfree⟩ := Abandoned.elsewhere ⟨hthere, hunheld, hspent⟩ hvalid hold htokens
      refine ⟨⟨?_, ?_, hspent⟩, fun call heq => hne ?_⟩
      · rw [List.getElem?_set_ne hne]
        exact hthere
      · rw [List.map_cons, List.mem_cons, not_or]
        exact ⟨Ne.symm hne, hfree⟩
      · cases heq
        rfl
  | rearm htokens =>
      obtain ⟨old, hold, rfl, -⟩ := (hvalid.front htokens).held _ _ List.mem_cons_self
      obtain ⟨-, hfd, hfree⟩ := Abandoned.elsewhere ⟨hthere, hunheld, hspent⟩ hvalid hold htokens
      exact ⟨⟨hthere, hfree, (Function.update_of_ne hfd ..).trans hspent⟩, nofun⟩
  | add htokens =>
      obtain ⟨old, hold, rfl, -⟩ := (hvalid.front htokens).held _ _ List.mem_cons_self
      obtain ⟨-, hfd, hfree⟩ := Abandoned.elsewhere ⟨hthere, hunheld, hspent⟩ hvalid hold htokens
      exact ⟨⟨hthere, hfree, (Function.update_of_ne hfd ..).trans hspent⟩, nofun⟩
  | release hold htokens =>
      obtain ⟨hne, hfd, hfree⟩ := Abandoned.elsewhere ⟨hthere, hunheld, hspent⟩ hvalid hold htokens
      refine ⟨⟨?_, hfree, (Function.update_of_ne hfd ..).trans hspent⟩, fun call heq => hne ?_⟩
      · rw [List.getElem?_set_ne hne]
        exact hthere
      · cases heq
        rfl
  | close hloose => exact ⟨⟨hthere, hunheld, hspent⟩, nofun⟩
  | accept hfd => exact ⟨⟨hthere, hunheld, hspent⟩, nofun⟩
  | create hloose =>
      have hlt := (List.getElem?_eq_some_iff.mp hthere).1
      refine ⟨⟨?_, ?_, hspent⟩, fun call heq => ?_⟩
      · rw [List.getElem?_append_left hlt]
        exact hthere
      · rw [List.map_cons, List.mem_cons, not_or]
        exact ⟨Nat.ne_of_lt hlt, hunheld⟩
      · cases heq
        exact absurd hlt (Nat.lt_irrefl _)

theorem Step.abandoned (hvalid : Valid a) (h : Abandoned a ptr conn) (step : Step watcher a label b) :
    Abandoned b ptr conn ∧ ∀ call, label ≠ some (ptr, call) := by
  obtain ⟨a', b', hbefore, hact, hafter⟩ := step
  obtain ⟨hnext, hlabel⟩ := hact.abandoned (hvalid.same hbefore) (h.same hbefore)
  exact ⟨hnext.same hafter, hlabel⟩

end Attended

end Custody

end VideoAdapter.Http
