import AsmProto.Lib.Ownership
import AsmProto.Socket
import AsmProto.TlsSessions

set_option autoImplicit false

/-! # Socket objects

The class `Socket` owns a file descriptor: constructors take one, moves pass it on, `close` and the
destructor give it back. The kernel gives out descriptors that are not in use, and closes what it is
told to; here is that it is never told to close what is not open, and what a run of the server does to
the descriptor table. -/

namespace AsmProto

/-- The `Socket` objects of a program, each with its `fd_`, the descriptors it has outside of them, and
    the kernel's side: the descriptors that are open, those ever opened and closed, and the calls of
    `::close` that were given none of them. -/
structure SocketTable (N : Type) where
  fd : N → Option ℤ := fun _ => none
  rawFds : List ℕ := []
  openFds : List ℕ := []
  openedFds : List ℕ := []
  closedFds : List ℕ := []
  badCloses : List ℤ := []

namespace SocketTable

variable {N : Type} [DecidableEq N]

def setFd (table : SocketTable N) (object : N) (fd : Option ℤ) : SocketTable N :=
  { table with fd := Function.update table.fd object fd }

theorem setFd_fd_self (table : SocketTable N) (object : N) (fd : Option ℤ) :
    (table.setFd object fd).fd object = fd := Function.update_self ..

theorem setFd_fd_of_ne (table : SocketTable N) {object other : N} (h : other ≠ object)
    (fd : Option ℤ) : (table.setFd object fd).fd other = table.fd other := Function.update_of_ne h ..

/-- `::socket` or `::accept` returned the descriptor. -/
def kernelOpen (table : SocketTable N) (fd : ℕ) : SocketTable N :=
  { table with openFds := fd :: table.openFds, openedFds := table.openedFds ++ [fd] }

/-- `::close`. -/
def kernelClose (table : SocketTable N) (fd : ℤ) : SocketTable N :=
  if fd.toNat ∈ table.openFds then
    { table with
      openFds := table.openFds.erase fd.toNat, closedFds := table.closedFds ++ [fd.toNat] }
  else { table with badCloses := table.badCloses ++ [fd] }

/-- A raw descriptor goes into an object. -/
def giveRaw (table : SocketTable N) (fd : ℤ) : SocketTable N :=
  { table with rawFds := table.rawFds.filter fun raw => (raw : ℤ) ≠ fd }

/-- `Socket::close`; the object lives. -/
def close (table : SocketTable N) (object : N) : SocketTable N :=
  match table.fd object with
  | none => table
  | some fd => if 0 ≤ fd then (table.kernelClose fd).setFd object (some (-1)) else table

/-- The members of `Socket` that make, move or end objects, and the functions that return one. A result
    is what the kernel returns. -/
inductive Call (N : Type) where
  /-- The program calls `::socket` itself. -/
  | openRaw (fd : ℕ)
  /-- `Socket(int)`; `Socket()` is given -1. -/
  | construct (object : N) (fd : ℤ)
  | makeTcpSocket (object : N) (result : Except String ℕ)
  | accept (object listener : N) (result : Except String ℕ)
  | moveConstruct (object other : N)
  | moveAssign (object other : N)
  | close (object : N)
  | destroy (object : N)

/-- A descriptor from the kernel goes into a new object; an error is thrown, and there is none. -/
def receive (table : SocketTable N) (object : N) : Except String ℕ → SocketTable N
  | .ok fd => (table.kernelOpen fd).setFd object (some fd)
  | .error _ => table

def moveFrom (table : SocketTable N) (object other : N) : SocketTable N :=
  (table.setFd object (table.fd other)).setFd other (some (-1))

def step (table : SocketTable N) : Call N → SocketTable N
  | .openRaw fd => { table.kernelOpen fd with rawFds := fd :: table.rawFds }
  | .construct object fd => (table.giveRaw fd).setFd object (some fd)
  | .makeTcpSocket object result => table.receive object result
  | .accept object _ result => table.receive object result
  | .moveConstruct object other => table.moveFrom object other
  | .moveAssign object other =>
      if object = other then table else (table.close object).moveFrom object other
  | .close object => table.close object
  | .destroy object => (table.close object).setFd object none

def runCalls (table : SocketTable N) (calls : List (Call N)) : SocketTable N := calls.foldl step table

/-- The kernel returns no descriptor that is in use. -/
def Fresh (table : SocketTable N) : Except String ℕ → Prop
  | .ok fd => fd ∉ table.openFds
  | .error _ => True

/-- New objects are new, and others live. `Socket(int)` takes its word for the descriptor: a program
    must not give it one that another object has, or that is not open. -/
def Allowed (table : SocketTable N) : Call N → Prop
  | .openRaw fd => fd ∉ table.openFds
  | .construct object fd => table.fd object = none ∧ (0 ≤ fd → fd.toNat ∈ table.rawFds)
  | .makeTcpSocket object result => table.fd object = none ∧ table.Fresh result
  | .accept object listener result =>
      table.fd object = none ∧ (table.fd listener).isSome ∧ table.Fresh result
  | .moveConstruct object other => table.fd object = none ∧ (table.fd other).isSome
  | .moveAssign object other => (table.fd object).isSome ∧ (table.fd other).isSome
  | .close object => (table.fd object).isSome
  | .destroy object => (table.fd object).isSome

def AllAllowed (table : SocketTable N) : List (Call N) → Prop
  | [] => True
  | call :: calls => table.Allowed call ∧ (table.step call).AllAllowed calls

/-! ## Objects as owners -/

/-- What an object owns: its descriptor, if `valid()`. -/
def ownedFd : Option ℤ → Option ℕ
  | none => none
  | some fd => if 0 ≤ fd then some fd.toNat else none

/-- Who owns descriptors: the objects, and the program each raw one. -/
def ownedBy (table : SocketTable N) : N ⊕ ℕ → Option ℕ
  | .inl object => ownedFd (table.fd object)
  | .inr raw => if raw ∈ table.rawFds then some raw else none

/-- The table as ownership of descriptors. -/
def owners (table : SocketTable N) : Ownership (N ⊕ ℕ) ℕ where
  holds := table.ownedBy
  out := table.openFds
  taken := table.openedFds
  returned := table.closedFds

omit [DecidableEq N] in
theorem owners_holds (table : SocketTable N) (object : N) :
    table.owners.holds (.inl object) = ownedFd (table.fd object) := rfl

omit [DecidableEq N] in
theorem owners_holds_raw (table : SocketTable N) (raw : ℕ) :
    table.owners.holds (.inr raw) = if raw ∈ table.rawFds then some raw else none := rfl

/-- Every open descriptor has one owner, and `::close` was only given open ones. -/
structure Sound (table : SocketTable N) : Prop where
  exclusive : table.owners.Exclusive
  closes : table.badCloses = []

omit [DecidableEq N] in
theorem sound_empty : ({} : SocketTable N).Sound := by
  have howners : ({} : SocketTable N).owners = {} := by
    have hholds : ({} : SocketTable N).ownedBy = fun _ => none := by
      funext owner
      cases owner <;> rfl
    rw [owners, hholds]
  refine ⟨?_, rfl⟩
  rw [howners]
  exact Ownership.exclusive_empty

theorem owners_setFd (table : SocketTable N) (object : N) (fd : Option ℤ) :
    (table.setFd object fd).owners
      = { table.owners with
          holds := Function.update table.owners.holds (.inl object) (ownedFd fd) } := by
  have hholds : (table.setFd object fd).ownedBy
      = Function.update table.ownedBy (.inl object) (ownedFd fd) := by
    funext owner
    cases owner with
    | inl other =>
        by_cases hsame : other = object
        · subst hsame
          rw [Function.update_self, ownedBy, setFd_fd_self]
        · rw [Function.update_of_ne (fun h => hsame (Sum.inl.inj h)), ownedBy,
            setFd_fd_of_ne _ hsame]
          rfl
    | inr raw =>
        rw [Function.update_of_ne Sum.inr_ne_inl]
        rfl
  rw [owners, hholds]
  rfl

/-- A raw descriptor belongs to the program. -/
theorem owners_openRaw (table : SocketTable N) (fd : ℕ) :
    (table.step (.openRaw fd)).owners = table.owners.acquire (.inr fd) fd := by
  have hholds : (table.step (.openRaw fd)).ownedBy
      = Function.update table.ownedBy (.inr fd) (some fd) := by
    funext owner
    cases owner with
    | inl object =>
        rw [Function.update_of_ne Sum.inl_ne_inr]
        rfl
    | inr raw =>
        by_cases hsame : raw = fd
        · subst hsame
          rw [Function.update_self]
          exact if_pos List.mem_cons_self
        · rw [Function.update_of_ne (fun h => hsame (Sum.inr.inj h)), ownedBy, ownedBy]
          simp only [SocketTable.step, List.mem_cons, hsame, false_or]
  rw [owners, hholds]
  rfl

/-- Giving it to an object passes it on. -/
theorem owners_giveRaw {table : SocketTable N} {fd : ℕ} (hraw : fd ∈ table.rawFds) (object : N) :
    ((table.giveRaw fd).setFd object (some (fd : ℤ))).owners
      = table.owners.pass (.inr fd) (.inl object) := by
  have hholds : (table.giveRaw fd).ownedBy = Function.update table.ownedBy (.inr fd) none := by
    funext owner
    cases owner with
    | inl other =>
        rw [Function.update_of_ne Sum.inl_ne_inr]
        rfl
    | inr raw =>
        by_cases hsame : raw = fd
        · subst hsame
          rw [Function.update_self, ownedBy, if_neg]
          simp [giveRaw]
        · rw [Function.update_of_ne (fun h => hsame (Sum.inr.inj h)), ownedBy, ownedBy]
          simp [giveRaw, hsame]
  have hfd : ownedFd (some (fd : ℤ)) = table.owners.holds (.inr fd) := by
    rw [owners_holds_raw, if_pos hraw, ownedFd, if_pos (Int.natCast_nonneg fd), Int.toNat_natCast]
  rw [owners_setFd, hfd, owners, hholds]
  rfl

section Sound

variable {table : SocketTable N} {object other : N}

/-- **`close` gives back what the object owns**, and leaves it without a descriptor. -/
theorem Sound.close (h : table.Sound) (object : N) :
    (table.close object).Sound ∧ (table.close object).owners.holds (.inl object) = none := by
  unfold SocketTable.close
  cases hfd : table.fd object with
  | none =>
      have hempty : table.owners.holds (.inl object) = none := by rw [owners_holds, hfd, ownedFd]
      exact ⟨h, hempty⟩
  | some fd =>
      by_cases hvalid : 0 ≤ fd
      · have hholds : table.owners.holds (.inl object) = some fd.toNat := by
          rw [owners_holds, hfd, ownedFd, if_pos hvalid]
        have hopen : fd.toNat ∈ table.openFds := (h.exclusive.owned fd.toNat).2 ⟨.inl object, hholds⟩
        have howners : ((table.kernelClose fd).setFd object (some (-1))).owners
            = table.owners.giveBack (.inl object) fd.toNat := by
          rw [owners_setFd, kernelClose, if_pos hopen]
          rfl
        simp only [if_pos hvalid]
        refine ⟨⟨?_, ?_⟩, ?_⟩
        · rw [howners]
          exact h.exclusive.giveBack hholds
        · rw [setFd, kernelClose, if_pos hopen]
          exact h.closes
        · rw [howners]
          exact Function.update_self ..
      · simp only [if_neg hvalid]
        exact ⟨h, by rw [owners_holds, hfd, ownedFd, if_neg hvalid]⟩

/-- What `close` does to an object with an open descriptor. -/
theorem close_of_open {fd : ℕ} (hfd : table.fd object = some (fd : ℤ))
    (hopen : fd ∈ table.openFds) :
    table.close object
      = { table with openFds := table.openFds.erase fd, closedFds := table.closedFds ++ [fd] }.setFd
          object (some (-1)) := by
  rw [SocketTable.close, hfd]
  simp only [if_pos (Int.natCast_nonneg fd)]
  rw [kernelClose, Int.toNat_natCast, if_pos hopen]

/-- `close` opens nothing. -/
theorem openedFds_close (table : SocketTable N) (object : N) :
    (table.close object).openedFds = table.openedFds := by
  unfold SocketTable.close
  cases table.fd object with
  | none => rfl
  | some fd =>
      dsimp only
      split
      · rw [SocketTable.setFd, kernelClose]
        split <;> rfl
      · rfl

theorem rawFds_close (table : SocketTable N) (object : N) :
    (table.close object).rawFds = table.rawFds := by
  unfold SocketTable.close
  cases table.fd object with
  | none => rfl
  | some fd =>
      dsimp only
      split
      · rw [SocketTable.setFd, kernelClose]
        split <;> rfl
      · rfl

/-- The call leaves all descriptors to objects. -/
def Call.Encapsulated : Call N → Prop
  | .openRaw _ => False
  | _ => True

theorem rawFds_step (h : table.rawFds = []) {call : Call N} (hcall : call.Encapsulated) :
    (table.step call).rawFds = [] := by
  cases call with
  | openRaw fd => exact hcall.elim
  | construct object fd =>
      show table.rawFds.filter _ = []
      rw [h, List.filter_nil]
  | makeTcpSocket object result => cases result <;> exact h
  | accept object listener result => cases result <;> exact h
  | moveConstruct object other => exact h
  | moveAssign object other =>
      rw [SocketTable.step]
      split
      · exact h
      · exact (rawFds_close table object).trans h
  | close object => exact (rawFds_close table object).trans h
  | destroy object => exact (rawFds_close table object).trans h

/-- A program that leaves all descriptors to objects has none itself. -/
theorem rawFds_runCalls (h : table.rawFds = []) {calls : List (Call N)}
    (hcalls : ∀ call ∈ calls, call.Encapsulated) : (table.runCalls calls).rawFds = [] := by
  induction calls generalizing table with
  | nil => exact h
  | cons call calls ih =>
      obtain ⟨hcall, hrest⟩ := List.forall_mem_cons.1 hcalls
      exact ih (rawFds_step h hcall) hrest

/-- Writing a value without a descriptor into an object without one. -/
theorem Sound.setFd (h : table.Sound) (hempty : table.owners.holds (.inl object) = none) {fd : Option ℤ}
    (hfd : ownedFd fd = none) : (table.setFd object fd).Sound := by
  have howners : (table.setFd object fd).owners = table.owners := by
    rw [owners_setFd, hfd, ← hempty, Function.update_eq_self]
  refine ⟨?_, h.closes⟩
  rw [howners]
  exact h.exclusive

/-- A descriptor that was not in use goes to an object without one. -/
theorem Sound.receive (h : table.Sound) (hempty : table.owners.holds (.inl object) = none)
    {result : Except String ℕ} (hfresh : table.Fresh result) : (table.receive object result).Sound := by
  cases result with
  | error reason => exact h
  | ok fd =>
      have howners : (table.receive object (.ok fd)).owners = table.owners.acquire (.inl object) fd := by
        rw [SocketTable.receive, owners_setFd, ownedFd, if_pos (Int.natCast_nonneg fd), Int.toNat_natCast]
        rfl
      refine ⟨?_, h.closes⟩
      rw [howners]
      exact h.exclusive.acquire hempty hfresh

/-- A move into an object without a descriptor. -/
theorem Sound.moveFrom (h : table.Sound) (hempty : table.owners.holds (.inl object) = none)
    (hne : object ≠ other) : (table.moveFrom object other).Sound := by
  have howners : (table.moveFrom object other).owners
      = table.owners.pass (.inl other) (.inl object) := by
    have hgone : ownedFd (some (-1)) = none := rfl
    rw [SocketTable.moveFrom, owners_setFd, owners_setFd, hgone, Ownership.pass,
      Function.update_comm (fun hsame => hne (Sum.inl.inj hsame))]
    rfl
  refine ⟨?_, h.closes⟩
  rw [howners]
  exact h.exclusive.pass hempty

/-- **Every allowed call keeps the table sound.** -/
theorem Sound.step (h : table.Sound) {call : Call N} (hallowed : table.Allowed call) :
    (table.step call).Sound := by
  have hnew : ∀ object, table.fd object = none → table.owners.holds (.inl object) = none := by
    intro object hdead
    rw [owners_holds, hdead, ownedFd]
  cases call with
  | openRaw fd =>
      have hempty : table.owners.holds (.inr fd) = none := by
        rw [owners_holds_raw, if_neg]
        intro hraw
        refine hallowed ((h.exclusive.owned fd).2 ⟨.inr fd, ?_⟩)
        rw [owners_holds_raw, if_pos hraw]
      refine ⟨?_, h.closes⟩
      rw [owners_openRaw]
      exact h.exclusive.acquire hempty hallowed
  | construct object fd =>
      obtain ⟨hdead, hraw⟩ := hallowed
      refine ⟨?_, h.closes⟩
      by_cases hvalid : 0 ≤ fd
      · obtain ⟨raw, rfl⟩ := Int.eq_ofNat_of_zero_le hvalid
        have howners := owners_giveRaw (hraw hvalid) object
        rw [Int.toNat_natCast] at howners
        exact howners ▸ h.exclusive.pass (hnew object hdead)
      · -- no descriptor is given
        have hgiven : table.giveRaw fd = table := by
          rw [giveRaw, List.filter_eq_self.2]
          intro raw _
          rw [decide_eq_true_iff]
          omega
        rw [SocketTable.step, hgiven]
        have hnone : ownedFd (some fd) = none := if_neg hvalid
        exact (h.setFd (hnew object hdead) hnone).exclusive
  | makeTcpSocket object result => exact h.receive (hnew object hallowed.1) hallowed.2
  | accept object listener result => exact h.receive (hnew object hallowed.1) hallowed.2.2
  | moveConstruct object other =>
      obtain ⟨hdead, halive⟩ := hallowed
      refine h.moveFrom (hnew object hdead) ?_
      rintro rfl
      rw [hdead] at halive
      cases halive
  | moveAssign object other =>
      rw [SocketTable.step]
      by_cases hself : object = other
      · rw [if_pos hself]
        exact h
      · rw [if_neg hself]
        obtain ⟨hclosed, hempty⟩ := h.close object
        exact hclosed.moveFrom hempty hself
  | close object => exact (h.close object).1
  | destroy object =>
      obtain ⟨hclosed, hempty⟩ := h.close object
      exact hclosed.setFd hempty rfl

/-- The first calls of an allowed run are allowed. -/
theorem allAllowed_of_initial {before calls : List (Call N)} (h : table.AllAllowed calls)
    (hinitial : before <+: calls) : table.AllAllowed before := by
  induction before generalizing table calls with
  | nil => trivial
  | cons call before ih =>
      obtain ⟨calls', rfl, hrest⟩ := List.cons_prefix_iff.1 hinitial
      exact ⟨h.1, ih h.2 hrest⟩

/-- **A run of allowed calls** keeps it sound. -/
theorem Sound.runCalls (h : table.Sound) {calls : List (Call N)} (hallowed : table.AllAllowed calls) :
    (table.runCalls calls).Sound := by
  induction calls generalizing table with
  | nil => exact h
  | cons call calls ih => exact ih (h.step hallowed.1) hallowed.2

end Sound

/-- **Descriptors are closed once, by the object that owns them.** After any sequence of constructions,
    moves (also of an object to itself), closes and destructions that a program can make, if it gives
    `Socket(int)` only descriptors that it opened itself and gave to no object before: `::close` was
    never given a descriptor that was not open; every open descriptor is the `fd_` of exactly one
    object, or one the program has kept; every valid object has an open one; and once no object is
    valid and none is kept, nothing is left open and every descriptor was closed as often as it was
    opened. -/
theorem descriptors_close_once {N : Type} [DecidableEq N] (calls : List (Call N))
    (hallowed : ({} : SocketTable N).AllAllowed calls) :
    let table := ({} : SocketTable N).runCalls calls
    table.badCloses = [] ∧
    (∀ fd ∈ table.openFds, fd ∉ table.rawFds → ∃! object, table.fd object = some (fd : ℤ)) ∧
    (∀ fd ∈ table.rawFds, fd ∈ table.openFds ∧ ∀ object, table.fd object ≠ some (fd : ℤ)) ∧
    (∀ object fd, table.fd object = some fd → 0 ≤ fd → fd.toNat ∈ table.openFds) ∧
    (table.rawFds = [] → (∀ object fd, table.fd object = some fd → ¬ 0 ≤ fd) →
      table.openFds = [] ∧ ∀ fd, table.openedFds.count fd = table.closedFds.count fd) := by
  intro table
  have hsound : table.Sound := sound_empty.runCalls hallowed
  have hholds : ∀ object (fd : ℕ), table.owners.holds (.inl object) = some fd ↔
      table.fd object = some (fd : ℤ) := by
    intro object fd
    rw [owners_holds]
    cases hfd : table.fd object with
    | none => simp [ownedFd]
    | some value =>
        by_cases hvalid : 0 ≤ value
        · simp only [ownedFd, if_pos hvalid, Option.some.injEq]
          omega
        · simp only [ownedFd, if_neg hvalid, Option.some.injEq]
          refine iff_of_false (by simp) fun hsame => ?_
          omega
  have hraw : ∀ fd ∈ table.rawFds, table.owners.holds (.inr fd) = some fd := by
    intro fd hmem
    rw [owners_holds_raw, if_pos hmem]
  refine ⟨hsound.closes, fun fd hopen hkept => ?_, fun fd hmem => ⟨?_, fun object hobject => ?_⟩,
    fun object fd hfd hvalid => ?_, fun hnone hinvalid => ?_⟩
  · obtain ⟨owner, howner⟩ := (hsound.exclusive.owned fd).1 hopen
    cases owner with
    | inl object =>
        refine ⟨object, (hholds object fd).1 howner, fun object' hobject' => ?_⟩
        exact Sum.inl.inj (hsound.exclusive.unique ((hholds object' fd).2 hobject') howner)
    | inr raw =>
        rw [owners_holds_raw] at howner
        split at howner
        · next hmem => exact absurd (Option.some.inj howner ▸ hmem) hkept
        · cases howner
  · exact (hsound.exclusive.owned fd).2 ⟨_, hraw fd hmem⟩
  · cases hsound.exclusive.unique ((hholds object fd).2 hobject) (hraw fd hmem)
  · refine (hsound.exclusive.owned fd.toNat).2 ⟨_, (hholds object fd.toNat).2 ?_⟩
    rw [hfd, Int.toNat_of_nonneg hvalid]
  · refine hsound.exclusive.settled fun owner => ?_
    cases owner with
    | inl object =>
        cases hempty : table.owners.holds (.inl object) with
        | none => rfl
        | some fd =>
            exact absurd (Int.natCast_nonneg fd) (hinvalid object _ ((hholds object fd).1 hempty))
    | inr raw =>
        rw [owners_holds_raw, hnone, if_neg List.not_mem_nil]

/-- One object takes a descriptor, assigns itself, passes it on twice and is destroyed; its descriptor
    is given out again, to the program, which makes an object of it. -/
def movingCalls : List (Call (Fin 3)) :=
  [.makeTcpSocket 0 (.ok 5), .moveAssign 0 0, .moveConstruct 1 0, .construct 2 (-1), .moveAssign 2 1,
    .destroy 0, .close 2, .destroy 2, .openRaw 5, .construct 0 5, .destroy 1, .destroy 0]

theorem allAllowed_movingCalls : ({} : SocketTable (Fin 3)).AllAllowed movingCalls := by
  unfold movingCalls
  refine ⟨⟨rfl, ?_⟩, ⟨rfl, rfl⟩, ⟨rfl, rfl⟩, ⟨rfl, ?_⟩, ⟨rfl, rfl⟩, rfl, rfl, rfl, ?_, ⟨rfl, ?_⟩, rfl,
    rfl, trivial⟩
  · exact List.not_mem_nil
  · exact fun hvalid => absurd hvalid (by decide)
  · exact List.not_mem_nil
  · exact fun _ => List.mem_singleton.2 rfl

theorem descriptors_close_once_moving :
    (({} : SocketTable (Fin 3)).runCalls movingCalls).badCloses = [] ∧
    (({} : SocketTable (Fin 3)).runCalls movingCalls).openFds = [] := by
  obtain ⟨hcloses, -, -, -, hend⟩ := descriptors_close_once movingCalls allAllowed_movingCalls
  refine ⟨hcloses, (hend rfl fun object fd hfd => ?_).1⟩
  have hgone : (({} : SocketTable (Fin 3)).runCalls movingCalls).fd object = none := by
    fin_cases object <;> rfl
  rw [hgone] at hfd
  cases hfd

/-- Two objects made of one descriptor: the second destructor closes what is not open. -/
example : (({} : SocketTable (Fin 2)).runCalls
    [.openRaw 3, .construct 0 3, .construct 1 3, .destroy 0, .destroy 1]).badCloses = [3] := by
  decide

end SocketTable

namespace TlsServer

open SocketTable

/-- The two objects of `run`. -/
inductive ServerSocket where
  | serverSocket
  | clientSocket
deriving DecidableEq

instance : Fintype ServerSocket :=
  Fintype.ofList [.serverSocket, .clientSocket] fun object => by cases object <;> simp

/-- What the loop does with them; a turn comes with the descriptor that `accept` would return. The
    observer is taken to return; a process that SIGPIPE kills in a session makes a first part of these
    calls. -/
def loopCalls : List (Turn × ℕ) → List (Call ServerSocket)
  | [] => []
  | (turn, fd) :: turns =>
      if turn.stopFlag then [.destroy .serverSocket]
      else match turn.poll with
        | .interrupted stopFlag =>
            if stopFlag then [.destroy .serverSocket] else loopCalls turns
        | .fails => [.destroy .serverSocket]
        | .timesOut => loopCalls turns
        | .acceptFails reason =>
            [.accept .clientSocket .serverSocket (.error reason), .destroy .serverSocket]
        | .accepts _ =>
            .accept .clientSocket .serverSocket (.ok fd) :: .close .clientSocket
              :: .destroy .clientSocket :: loopCalls turns

/-- What `run` does with them, from the listening socket on. -/
def socketCalls (listening : Socket.Listening) (fd : ℕ) (turns : List (Turn × ℕ)) :
    List (Call ServerSocket) :=
  match listening.socket with
  | .error reason => [.makeTcpSocket .serverSocket (.error reason)]
  | .ok _ =>
      .makeTcpSocket .serverSocket (.ok fd) ::
        match Socket.listen listening with
        | .ok _ => loopCalls turns
        | .error _ => [.destroy .serverSocket]

/-- Between two turns, the listening socket is the one that is open. -/
structure Waiting (fd : ℕ) (table : SocketTable ServerSocket) : Prop where
  serverSocket : table.fd .serverSocket = some (fd : ℤ)
  clientSocket : table.fd .clientSocket = none
  openFds : table.openFds = [fd]

/-- Nothing is left. -/
structure Gone (table : SocketTable ServerSocket) : Prop where
  objects : ∀ object, table.fd object = none
  openFds : table.openFds = []

theorem gone_of_waiting {fd : ℕ} {table : SocketTable ServerSocket} (h : Waiting fd table) :
    Gone (table.step (.destroy .serverSocket)) := by
  have hopen : fd ∈ table.openFds := by
    rw [h.openFds]
    exact List.mem_singleton.2 rfl
  have hclose : table.close .serverSocket = _ := close_of_open h.serverSocket hopen
  rw [SocketTable.step, hclose]
  refine ⟨fun object => ?_, ?_⟩
  · cases object with
    | serverSocket => exact setFd_fd_self ..
    | clientSocket =>
        have hne : ServerSocket.clientSocket ≠ .serverSocket := by decide
        rw [setFd_fd_of_ne _ hne, setFd_fd_of_ne _ hne]
        exact h.clientSocket
  · show table.openFds.erase fd = []
    rw [h.openFds, List.erase_cons_head]

/-- **A turn that serves a client**: its descriptor comes and goes. -/
theorem waiting_of_serve {fd client : ℕ} {table : SocketTable ServerSocket} (h : Waiting fd table)
    (hfresh : client ≠ fd) :
    let accepted := table.step (.accept .clientSocket .serverSocket (.ok client))
    let closed := accepted.step (.close .clientSocket)
    (table.Allowed (.accept .clientSocket .serverSocket (.ok client)) ∧
      accepted.Allowed (.close .clientSocket) ∧ closed.Allowed (.destroy .clientSocket)) ∧
    Waiting fd (closed.step (.destroy .clientSocket)) ∧
    (closed.step (.destroy .clientSocket)).openedFds = table.openedFds ++ [client] := by
  intro accepted closed
  have hclient : accepted.fd .clientSocket = some (client : ℤ) := setFd_fd_self ..
  have hne : ServerSocket.serverSocket ≠ .clientSocket := by decide
  have hserver : accepted.fd .serverSocket = some (fd : ℤ) :=
    (setFd_fd_of_ne (table.kernelOpen client) hne (some (client : ℤ))).trans h.serverSocket
  have hopen : client ∈ accepted.openFds := List.mem_cons_self
  have hclosed : closed = _ := close_of_open hclient hopen
  have hgone : closed.fd .clientSocket = some (-1) := by
    rw [hclosed]
    exact setFd_fd_self ..
  have hagain : closed.close .clientSocket = closed := by
    rw [SocketTable.close, hgone]
    rfl
  refine ⟨⟨⟨h.clientSocket, ?_, ?_⟩, ?_, ?_⟩, ⟨?_, ?_, ?_⟩, ?_⟩
  · rw [h.serverSocket]
    rfl
  · rw [Fresh, h.openFds, List.mem_singleton]
    exact hfresh
  · rw [Allowed, hclient]
    rfl
  · rw [Allowed, hgone]
    rfl
  · rw [SocketTable.step, hagain, hclosed, setFd_fd_of_ne _ hne, setFd_fd_of_ne _ hne]
    exact hserver
  · exact setFd_fd_self ..
  · rw [SocketTable.step, hagain, hclosed]
    show (client :: table.openFds).erase client = [fd]
    rw [List.erase_cons_head, h.openFds]
  · rw [SocketTable.step, hagain, hclosed]
    rfl

/-- The loop ends in one of the turns. -/
def Ends (turns : List (Turn × ℕ)) : Prop := ∃ turn ∈ turns, turn.1.ends = true

theorem ends_cons_of_not {turn : Turn × ℕ} {turns : List (Turn × ℕ)} (h : turn.1.ends = false)
    (hends : Ends (turn :: turns)) : Ends turns := by
  obtain ⟨last, hlast, hend⟩ := hends
  rcases List.mem_cons.1 hlast with rfl | hlater
  · rw [h] at hend
    cases hend
  · exact ⟨last, hlater, hend⟩

/-- **The loop** only makes allowed calls; it opens a descriptor for each connection it accepts, and
    leaves none when it ends. -/
theorem run_loopCalls {fd : ℕ} {turns : List (Turn × ℕ)} (hfresh : ∀ turn ∈ turns, turn.2 ≠ fd)
    {table : SocketTable ServerSocket} (h : Waiting fd table) :
    table.AllAllowed (loopCalls turns) ∧
    (table.runCalls (loopCalls turns)).openedFds.length
      = table.openedFds.length + (acceptedConnections (turns.map Prod.fst)).length ∧
    (Ends turns → Gone (table.runCalls (loopCalls turns))) := by
  induction turns generalizing table with
  | nil => exact ⟨trivial, rfl, fun ⟨turn, hturn, _⟩ => absurd hturn (by simp)⟩
  | cons turn turns ih =>
      obtain ⟨⟨stopFlag, poll⟩, client⟩ := turn
      obtain ⟨hclient, hrest⟩ := List.forall_mem_cons.1 hfresh
      have hdestroy : table.AllAllowed [.destroy .serverSocket] := by
        refine ⟨?_, trivial⟩
        rw [Allowed, h.serverSocket]
        rfl
      have hgone := gone_of_waiting h
      have hopened : (table.step (.destroy .serverSocket)).openedFds.length
          = table.openedFds.length + 0 := congrArg List.length (openedFds_close table .serverSocket)
      have hlater := ih hrest h
      cases stopFlag with
      | true => exact ⟨hdestroy, hopened, fun _ => hgone⟩
      | false =>
          cases poll with
          | interrupted stopFlag =>
              cases stopFlag with
              | true => exact ⟨hdestroy, hopened, fun _ => hgone⟩
              | false =>
                  exact ⟨hlater.1, hlater.2.1, fun hends => hlater.2.2 (ends_cons_of_not rfl hends)⟩
          | fails => exact ⟨hdestroy, hopened, fun _ => hgone⟩
          | timesOut =>
              exact ⟨hlater.1, hlater.2.1, fun hends => hlater.2.2 (ends_cons_of_not rfl hends)⟩
          | acceptFails reason =>
              refine ⟨⟨⟨h.clientSocket, ?_, trivial⟩, hdestroy⟩, hopened, fun _ => hgone⟩
              rw [h.serverSocket]
              rfl
          | accepts connection =>
              obtain ⟨⟨haccept, hclose, hend⟩, hwaiting, hone⟩ := waiting_of_serve h hclient
              obtain ⟨hallowed, hlength, hends⟩ := ih hrest hwaiting
              refine ⟨⟨haccept, hclose, hend, hallowed⟩, ?_,
                fun hlast => hends (ends_cons_of_not rfl hlast)⟩
              have haccepted : acceptedConnections
                  ((({ poll := .accepts connection }, client) :: turns).map Prod.fst)
                  = connection :: acceptedConnections (turns.map Prod.fst) := rfl
              rw [haccepted, List.length_cons]
              refine hlength.trans ?_
              rw [hone, List.length_append, List.length_singleton]
              omega

theorem encapsulated_loopCalls (turns : List (Turn × ℕ)) :
    ∀ call ∈ loopCalls turns, call.Encapsulated := by
  induction turns with
  | nil => exact List.forall_mem_nil _
  | cons turn turns ih =>
      obtain ⟨⟨stopFlag, poll⟩, client⟩ := turn
      have hdestroy : ∀ call ∈ [Call.destroy ServerSocket.serverSocket], call.Encapsulated :=
        List.forall_mem_singleton.2 trivial
      cases stopFlag with
      | true => exact hdestroy
      | false =>
          cases poll with
          | interrupted stopFlag =>
              cases stopFlag with
              | true => exact hdestroy
              | false => exact ih
          | fails => exact hdestroy
          | timesOut => exact ih
          | acceptFails reason => exact List.forall_mem_cons.2 ⟨trivial, hdestroy⟩
          | accepts connection =>
              exact List.forall_mem_cons.2 ⟨trivial, List.forall_mem_cons.2
                ⟨trivial, List.forall_mem_cons.2 ⟨trivial, ih⟩⟩⟩

/-- `run` keeps every descriptor in an object. -/
theorem encapsulated_socketCalls (listening : Socket.Listening) (fd : ℕ) (turns : List (Turn × ℕ)) :
    ∀ call ∈ socketCalls listening fd turns, call.Encapsulated := by
  unfold socketCalls
  cases listening.socket with
  | error reason => exact List.forall_mem_singleton.2 trivial
  | ok _ =>
      refine List.forall_mem_cons.2 ⟨trivial, ?_⟩
      cases Socket.listen listening with
      | ok _ => exact encapsulated_loopCalls turns
      | error ex => exact List.forall_mem_singleton.2 trivial

/-- Only the two objects own descriptors. -/
theorem owner_of_encapsulated {calls : List (Call ServerSocket)}
    (hcalls : ∀ call ∈ calls, call.Encapsulated) {owner : ServerSocket ⊕ ℕ} {fd : ℕ}
    (hholds : (({} : SocketTable ServerSocket).runCalls calls).owners.holds owner = some fd) :
    owner ∈ (Finset.univ : Finset ServerSocket).map Function.Embedding.inl := by
  cases owner with
  | inl object => exact Finset.mem_map_of_mem _ (Finset.mem_univ object)
  | inr raw =>
      rw [owners_holds_raw, rawFds_runCalls rfl hcalls, if_neg List.not_mem_nil] at hholds
      cases hholds

/-- The whole run, from the listening socket on. -/
theorem run_socketCalls {listening : Socket.Listening} {fd : ℕ} {turns : List (Turn × ℕ)}
    (hfresh : ∀ turn ∈ turns, turn.2 ≠ fd) :
    ({} : SocketTable ServerSocket).AllAllowed (socketCalls listening fd turns) ∧
    ((Socket.listen listening).Returns →
      (({} : SocketTable ServerSocket).runCalls (socketCalls listening fd turns)).openedFds.length
        = 1 + (acceptedConnections (turns.map Prod.fst)).length) ∧
    (¬ (Socket.listen listening).Returns ∨ Ends turns →
      Gone (({} : SocketTable ServerSocket).runCalls (socketCalls listening fd turns))) := by
  unfold socketCalls
  cases hsocket : listening.socket with
  | error reason =>
      have hlisten : ¬ (Socket.listen listening).Returns := by
        rw [Socket.listen, hsocket]
        exact Except.not_returns_iff.2 ⟨_, rfl⟩
      exact ⟨⟨⟨rfl, trivial⟩, trivial⟩, fun hreturns => absurd hreturns hlisten,
        fun _ => ⟨fun _ => rfl, rfl⟩⟩
  | ok _ =>
      have hmake : ({} : SocketTable ServerSocket).Allowed (.makeTcpSocket .serverSocket (.ok fd)) :=
        ⟨rfl, List.not_mem_nil⟩
      have hwaiting : Waiting fd
          (({} : SocketTable ServerSocket).step (.makeTcpSocket .serverSocket (.ok fd))) := by
        refine ⟨setFd_fd_self .., ?_, rfl⟩
        have hne : ServerSocket.clientSocket ≠ .serverSocket := by decide
        exact setFd_fd_of_ne _ hne _
      cases hlisten : Socket.listen listening with
      | ok _ =>
          obtain ⟨hallowed, hlength, hgone⟩ := run_loopCalls hfresh hwaiting
          refine ⟨⟨hmake, hallowed⟩, fun _ => hlength, fun hover => hgone ?_⟩
          exact hover.resolve_left (not_not.2 ⟨(), rfl⟩)
      | error ex =>
          refine ⟨⟨hmake, ?_, trivial⟩, fun hreturns => ?_, fun _ => gone_of_waiting hwaiting⟩
          · rw [Allowed, hwaiting.serverSocket]
            rfl
          · exact absurd hreturns (Except.not_returns_iff.2 ⟨ex, rfl⟩)

/-- **The server leaks no descriptor.** Over any run of the accept loop with an observer that does not
    throw, whatever `select`, `accept` and the sessions do, and wherever an exception of theirs leaves
    it: at any time, also when SIGPIPE kills the process, at most two sockets are open and `::close` was
    never given a descriptor that was not open; one is opened for every connection that is accepted, and
    when the run is over all of them are closed. -/
theorem run_leaks_no_descriptor (listening : Socket.Listening) (fd : ℕ) (turns : List (Turn × ℕ))
    (hfresh : ∀ turn ∈ turns, turn.2 ≠ fd) :
    let calls := socketCalls listening fd turns
    let last := ({} : SocketTable ServerSocket).runCalls calls
    (∀ before, before <+: calls →
      (({} : SocketTable ServerSocket).runCalls before).badCloses = [] ∧
      (({} : SocketTable ServerSocket).runCalls before).openFds.length ≤ 2) ∧
    ((Socket.listen listening).Returns →
      last.openedFds.length = 1 + (acceptedConnections (turns.map Prod.fst)).length) ∧
    (¬ (Socket.listen listening).Returns ∨ Ends turns →
      last.openFds = [] ∧ ∀ fd, last.openedFds.count fd = last.closedFds.count fd) := by
  intro calls last
  obtain ⟨hallowed, hopened, hgone⟩ := @run_socketCalls listening fd turns hfresh
  have hcalls := encapsulated_socketCalls listening fd turns
  refine ⟨fun before hbefore => ?_, hopened, fun hover => ?_⟩
  · have hsound : (({} : SocketTable ServerSocket).runCalls before).Sound :=
      sound_empty.runCalls (allAllowed_of_initial hallowed hbefore)
    have hfirst : ∀ call ∈ before, call.Encapsulated := fun call hcall =>
      hcalls call (hbefore.subset hcall)
    exact ⟨hsound.closes, hsound.exclusive.length_out_le fun _ _ hholds =>
      owner_of_encapsulated hfirst hholds⟩
  · have hsound : last.Sound := sound_empty.runCalls hallowed
    refine hsound.exclusive.settled fun owner => ?_
    cases hholds : last.owners.holds owner with
    | none => rfl
    | some fd =>
        obtain ⟨object, -, rfl⟩ := Finset.mem_map.1 (owner_of_encapsulated hcalls hholds)
        have hempty : last.owners.holds (.inl object) = none := by
          rw [owners_holds, (hgone hover).objects object, ownedFd]
        exact hholds.symm.trans hempty

/-- Two clients that send nothing, with a pause between them, and then the stop flag. -/
def idleTurns : List (Turn × ℕ) :=
  let silent : Connection := {
    handshake := .error (.exception (.asmError "SSL_accept failed"))
    stream := {} }
  [({ poll := .accepts silent }, 4), ({ poll := .timesOut }, 4), ({ poll := .accepts silent }, 4),
    ({ stopFlag := true, poll := .timesOut }, 4)]

theorem run_leaks_no_descriptor_idle :
    (({} : SocketTable ServerSocket).runCalls (socketCalls {} 3 idleTurns)).openFds = [] := by
  have hends : Ends idleTurns := ⟨({ stopFlag := true, poll := .timesOut }, 4), by simp [idleTurns], rfl⟩
  refine ((run_leaks_no_descriptor {} 3 idleTurns ?_).2.2 (Or.inr hends)).1
  intro turn hturn
  simp only [idleTurns, List.mem_cons, List.not_mem_nil, or_false] at hturn
  rcases hturn with rfl | rfl | rfl | rfl <;> decide

end TlsServer

end AsmProto
