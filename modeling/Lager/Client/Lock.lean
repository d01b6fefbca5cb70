import Lager.Client.Routines
import Lager.Rust.Serde
import Mathlib.Logic.Relation
import Mathlib.Tactic.Tauto

set_option relaxedAutoImplicit false
set_option autoImplicit false

/-!
# The box lock

A box can be locked for a user. `lock_guard` locks it and gives out a guard; when the guard is
dropped, or told to unlock, the lock is released. The box lets a user lock a box that is already
locked for that user, and one release frees it however often it was locked. So as long as no guard
of a user is released while another one is around, a guard means that the box is locked; otherwise
it may be free, or locked for somebody else.

## Main definitions

* `Lager.LagerBox.lockGuard`, `Lager.BoxLockGuard.unlock`, `Lager.BoxLockGuard.drop` — what guards
  do.
* `Lager.lockService` — what the box makes of their requests.
* `Lager.Bench`, `Lager.Bench.Step` — a box with the guards and the calls of all its users.
* `Lager.Bench.Sole` — what releases must keep to.

## Main results

* `Lager.Bench.covered_step_iff` — what a step preserves, and when.
* `Lager.Bench.locked_of_sole` — then a guard means that the box is locked.
* `Lager.Bench.guard_without_lock` — it does not in general.

## Implementation notes

A call is a routine, and every step of a bench belongs to one call, so calls overlap in any way. The
bodies of the answers are arbitrary. What a lock says of its time to live is left out: reading it
never fails, and nothing here depends on it.
-/

namespace Lager

open Library Deserialize

/-! ## Requests and answers -/

/-- `BoxLock`. -/
structure BoxLock where
  locked : Bool
  user : Option String
  holderType : Option String
  lockedAt : Option String
  lastHeartbeat : Option String
  previousUser : Option String
  deriving DecidableEq, Repr

namespace BoxLock

/-- The names of the fields. -/
def names : List String :=
  ["locked", "user", "holder_type", "locked_at", "last_heartbeat", "ttl_seconds", "previous_user"]

/-- `Deserialize`. -/
def fromValue : Deserialize BoxLock := fun v => do
  let get ← structFields names v
  let locked ← field boolean false (get "locked")
  let user ← field (option string) none (get "user")
  let holderType ← field (option string) none (get "holder_type")
  let lockedAt ← field (option string) none (get "locked_at")
  let lastHeartbeat ← field (option string) none (get "last_heartbeat")
  let previousUser ← field (option string) none (get "previous_user")
  return ⟨locked, user, holderType, lockedAt, lastHeartbeat, previousUser⟩

end BoxLock

/-- `lock_acquire`. -/
def lockAcquire (user holderType : String) (ttlSeconds : Option ℕ) : HttpRequest :=
  ⟨.post, "/lock", some (.object [("holder_type", .string holderType),
    ("ttl_seconds", (ttlSeconds.map fun (n : ℕ) => Value.number n).getD .null),
    ("user", .string user)]), .default⟩

/-- `unlock`. -/
def unlockRequest (user : String) (force : Bool) : HttpRequest :=
  ⟨.post, "/unlock", some (.object [("force", .bool force), ("user", .string user)]), .default⟩

/-- `parse_lock`. -/
def parseLock (status : ℕ) (body : Value) : Except Error BoxLock :=
  if status = 200 then
    match BoxLock.fromValue body with
    | some lock => .ok lock
    | none => .error (.decode .invalidLockState)
  else
    let message := ((body.get "error").bind Value.asStr).getD "lock request failed"
    .error (.box status (.text message))

/-- Whether the text of an error speaks of a missing route: one of the box that does, or that of a
body that is no JSON. -/
def Message.speaksOfRoute : Message → Bool
  | .text s => s == "Not found" || contains "non-JSON".toList s.toList
  | .nonJsonBody _ => true
  | _ => false

/-- `is_route_missing`. -/
def isRouteMissing : Error → Bool
  | .box status message => (status == 404 || status == 405) && message.speaksOfRoute
  | _ => false

/-- `map_route_missing`. -/
def mapRouteMissing (unsupported err : Error) : Error :=
  if isRouteMissing err then unsupported else err

/-- `lock_unsupported`. -/
def lockUnsupported : Error := .unsupportedByBox
  (.text "this box does not serve the /lock endpoints on port 9000; update the box software")

/-! ## Guards -/

/-- `BoxLockGuard`, without its client. -/
structure BoxLockGuard where
  user : String
  released : Bool
  deriving DecidableEq, Repr

namespace LagerBox

/-- What `lock_call` makes of an answer. -/
def readLock (answer : Except Error (ℕ × Value)) : Except Error BoxLock :=
  (answer.bind fun (status, body) => parseLock status body).mapError
    (mapRouteMissing lockUnsupported)

/-- `lock_call`. -/
def lockCall (req : HttpRequest) : Routine (Except Error BoxLock) :=
  readLock <$> Routine.execute req

/-- `lock`. -/
def lock (user : String) : Routine (Except Error BoxLock) := lockCall (lockAcquire user "user" none)

/-- `unlock`. -/
def unlock (user : String) : Routine (Except Error Unit) := do
  match ← lockCall (unlockRequest user false) with
  | .ok _ => return .ok ()
  | .error err => return .error err

/-- `lock_guard`. -/
def lockGuard (user : String) : Routine (Except Error BoxLockGuard) := do
  match ← lock user with
  | .ok _ => return .ok ⟨user, false⟩
  | .error err => return .error err

end LagerBox

namespace BoxLockGuard

/-- `Drop::drop`. -/
def drop (self : BoxLockGuard) : Routine Unit := do
  if !self.released then
    let _ ← LagerBox.unlock self.user

/-- `unlock`: what it consumes is dropped in the end. -/
def unlock (self : BoxLockGuard) : Routine (Except Error Unit) := do
  let self := { self with released := true }
  let result ← LagerBox.unlock self.user
  self.drop
  return result

end BoxLockGuard

/-! ## The box -/

/-- What the box makes of a request to lock or to unlock it: the status of the answer, and for whom
it is locked then. A free box, or one locked for the same user, is locked and answers 200; one
locked for somebody else refuses. A box that is free, or locked for the user who releases it, is
free then. -/
def lockService (holder : Option String) (req : HttpRequest) : ℕ × Option String :=
  let user := (req.body.bind (Value.get "user")).bind Value.asStr
  let mine := holder = none ∨ holder = user
  if req.method = .post ∧ req.path = "/lock" then
    if mine then (200, user) else (409, holder)
  else if req.method = .post ∧ req.path = "/unlock" then
    if mine then (200, none) else (403, holder)
  else (404, holder)

/-- What the box makes of a request to lock it. -/
theorem lockService_lock (holder : Option String) (user : String) :
    lockService holder (lockAcquire user "user" none) =
      if holder = none ∨ holder = some user then (200, some user) else (409, holder) := by
  simp [lockService, lockAcquire, Value.get, Value.asStr, List.lookup_cons]

/-- What the box makes of a request to unlock it. -/
theorem lockService_unlock (holder : Option String) (user : String) :
    lockService holder (unlockRequest user false) =
      if holder = none ∨ holder = some user then (200, none) else (403, holder) := by
  simp [lockService, unlockRequest, Value.get, Value.asStr, List.lookup_cons]

/-! ## A box and its users -/

/-- A box with its users: for whom it is locked, the guards they hold, and what is left of the calls
in progress. A call returns a guard or nothing. -/
structure Bench where
  holder : Option String
  guards : List BoxLockGuard
  calls : List (Routine (Option BoxLockGuard))

namespace Bench

/-- The steps of a bench. A user asks for a guard, or gives one back; the box answers the request a
call is waiting for; a call that is done returns. -/
inductive Step : Bench → Option HttpRequest → Bench → Prop
  | lockGuard {holder : Option String} {guards : List BoxLockGuard}
      {calls : List (Routine (Option BoxLockGuard))} (user : String) :
      Step ⟨holder, guards, calls⟩ none
        ⟨holder, guards, (Except.toOption <$> LagerBox.lockGuard user) :: calls⟩
  | unlock {holder : Option String} {front back : List BoxLockGuard} {guard : BoxLockGuard}
      {calls : List (Routine (Option BoxLockGuard))} :
      Step ⟨holder, front ++ guard :: back, calls⟩ none
        ⟨holder, front ++ back, ((fun _ => none) <$> guard.unlock) :: calls⟩
  | drop {holder : Option String} {front back : List BoxLockGuard} {guard : BoxLockGuard}
      {calls : List (Routine (Option BoxLockGuard))} :
      Step ⟨holder, front ++ guard :: back, calls⟩ none
        ⟨holder, front ++ back, ((fun _ => none) <$> guard.drop) :: calls⟩
  | serve {holder : Option String} {guards : List BoxLockGuard}
      {front back : List (Routine (Option BoxLockGuard))} {req : HttpRequest}
      {next : Except Error (ℕ × Value) → Routine (Option BoxLockGuard)} (body : Value) :
      Step ⟨holder, guards, front ++ .op (.execute req) next :: back⟩ (some req)
        ⟨(lockService holder req).2, guards,
          front ++ next (.ok ((lockService holder req).1, body)) :: back⟩
  | return {holder : Option String} {guards : List BoxLockGuard}
      {front back : List (Routine (Option BoxLockGuard))} {guard : Option BoxLockGuard} :
      Step ⟨holder, guards, front ++ .pure guard :: back⟩ none
        ⟨holder, guard.toList ++ guards, front ++ back⟩

/-- A guard means that the box is locked for its user. -/
def Locked (b : Bench) : Prop := ∀ guard ∈ b.guards, b.holder = some guard.user

/-- When the box is asked to unlock, no guard of that user is around: none that is held, and none
that a call is about to return. -/
def Sole (b : Bench) (served : Option HttpRequest) : Prop :=
  ∀ user, served = some (unlockRequest user false) → (∀ guard ∈ b.guards, guard.user ≠ user) ∧
    ∀ guard, .pure (some guard) ∈ b.calls → guard.user ≠ user

end Bench

/-! ## What the calls are -/

/-- The guard `lock_guard` returns after an answer. -/
def guardFor (user : String) (answer : Except Error (ℕ × Value)) : Option BoxLockGuard :=
  match LagerBox.readLock answer with
  | .ok _ => some ⟨user, false⟩
  | .error _ => none

/-- `lock_guard` makes one request, and returns a guard for its user or nothing. -/
theorem lockGuard_eq (user : String) : Except.toOption <$> LagerBox.lockGuard user =
    .op (.execute (lockAcquire user "user" none)) fun answer => .pure (guardFor user answer) := by
  refine congrArg (Program.op (Pass.execute (lockAcquire user "user" none))) ?_
  funext answer
  simp only [guardFor]
  show Except.toOption <$> (match LagerBox.readLock answer with
    | .ok _ => (pure (.ok ⟨user, false⟩) : Routine (Except Error BoxLockGuard))
    | .error err => pure (.error err)) = _
  cases LagerBox.readLock answer <;> rfl

/-- A release makes one request. -/
theorem unlock_eq (user : String) {α : Type} (f : Except Error Unit → Routine α) :
    LagerBox.unlock user >>= f = .op (.execute (unlockRequest user false)) fun answer =>
      f ((LagerBox.readLock answer).map fun _ => ()) := by
  refine congrArg (Program.op (Pass.execute (unlockRequest user false))) ?_
  funext answer
  show ((match LagerBox.readLock answer with
    | .ok _ => (pure (.ok ()) : Routine (Except Error Unit))
    | .error err => pure (.error err)) >>= f) = _
  cases LagerBox.readLock answer <;> rfl

/-- A guard that is told to unlock releases the lock once. -/
theorem BoxLockGuard.unlock_eq (guard : BoxLockGuard) :
    (fun _ => none) <$> guard.unlock =
      .op (.execute (unlockRequest guard.user false))
        fun _ => .pure (none : Option BoxLockGuard) := by
  simp only [unlock, map_bind]
  exact Lager.unlock_eq guard.user _

/-- A guard that is dropped releases the lock once, unless it has been released. -/
theorem BoxLockGuard.drop_eq (guard : BoxLockGuard) :
    (fun _ => none) <$> guard.drop = if guard.released then .pure (none : Option BoxLockGuard) else
      .op (.execute (unlockRequest guard.user false)) fun _ => .pure none := by
  simp only [drop]
  cases guard.released with
  | true => rfl
  | false =>
    simp only [Bool.not_false, if_true, map_bind, Bool.false_eq_true, if_false]
    exact Lager.unlock_eq guard.user _

/-! ## What holds all along -/

namespace Bench

/-- What a call in progress may be: `lock_guard` before its request is answered, or a release, or
done; and if it is about to return a guard, then the box is locked for the user of that. -/
inductive Expected (holder : Option String) : Routine (Option BoxLockGuard) → Prop
  | acquire (user : String) : Expected holder
      (.op (.execute (lockAcquire user "user" none)) fun answer => .pure (guardFor user answer))
  | release (user : String) : Expected holder
      (.op (.execute (unlockRequest user false)) fun _ => .pure none)
  | done (guard : Option BoxLockGuard) (locked : ∀ g ∈ guard, holder = some g.user) :
      Expected holder (.pure guard)

/-- What holds of a bench all along. -/
structure Covered (b : Bench) : Prop where
  guards : b.Locked
  calls : ∀ call ∈ b.calls, Expected b.holder call

/-- A bench that nobody uses yet. -/
theorem covered_start (holder : Option String) : Covered ⟨holder, [], []⟩ where
  guards := List.forall_mem_nil _
  calls := List.forall_mem_nil _

/-- An expected call stays so when the box stays locked for whom it is locked. -/
theorem Expected.mono {holder holder' : Option String} {call : Routine (Option BoxLockGuard)}
    (h : Expected holder call) (hholder : ∀ guard, call = .pure (some guard) →
      holder = some guard.user → holder' = some guard.user) : Expected holder' call := by
  cases h with
  | acquire user => exact .acquire user
  | release user => exact .release user
  | done guard locked =>
    refine .done guard fun g hg => ?_
    obtain rfl := Option.mem_def.mp hg
    exact hholder g rfl (locked g rfl)

/-- The box is locked for the user of a guard that is about to be returned. -/
theorem Expected.locked {holder : Option String} {guard : BoxLockGuard}
    (h : Expected holder (.pure (some guard))) : holder = some guard.user := by
  cases h with
  | done _ locked => exact locked guard rfl

/-- A call that waits for an answer is a `lock_guard` or a release. -/
theorem Expected.waiting {holder : Option String} {call : Routine (Option BoxLockGuard)}
    (h : Expected holder call) {req : HttpRequest}
    {next : Except Error (ℕ × Value) → Routine (Option BoxLockGuard)}
    (hcall : call = .op (.execute req) next) :
    (∃ user, req = lockAcquire user "user" none ∧
      next = fun answer => .pure (guardFor user answer)) ∨
      ∃ user, req = unlockRequest user false ∧ next = fun _ => .pure none := by
  cases h with
  | acquire user =>
    injection hcall with hop hnext
    injection hop with hreq
    subst hreq
    exact .inl ⟨user, rfl, hnext.symm⟩
  | release user =>
    injection hcall with hop hnext
    injection hop with hreq
    subst hreq
    exact .inr ⟨user, rfl, hnext.symm⟩
  | done => cases hcall

/-- A lock request of anybody leaves the box locked for whom it is locked. -/
theorem lockService_lock_keeps (user other : String) :
    (lockService (some user) (lockAcquire other "user" none)).2 = some user := by
  rw [lockService_lock]
  by_cases hmine : user = other
  · rw [if_pos (.inr (congrArg some hmine)), hmine]
  · rw [if_neg (by simpa using hmine)]

/-- So does a release by anybody else. -/
theorem lockService_unlock_keeps {user other : String} (h : user ≠ other) :
    (lockService (some user) (unlockRequest other false)).2 = some user := by
  rw [lockService_unlock, if_neg (by simpa using h)]

/-- A guard is granted only by an answer with which the box is locked for its user. -/
theorem lockService_granted {holder : Option String} {user : String} {body : Value}
    {guard : BoxLockGuard}
    (h : guardFor user (.ok ((lockService holder (lockAcquire user "user" none)).1, body)) =
      some guard) :
    (lockService holder (lockAcquire user "user" none)).2 = some guard.user := by
  rw [lockService_lock] at h ⊢
  split_ifs at h ⊢ with hmine
  · have huser : guard.user = user := by
      unfold guardFor at h
      split at h
      · rw [← Option.some.inj h]
      · cases h
    rw [huser]
  · cases h

/-- What the box answers leaves a bench covered, if releases keep to the condition. -/
theorem Covered.serve {holder : Option String} {guards : List BoxLockGuard}
    {front back : List (Routine (Option BoxLockGuard))} {req : HttpRequest}
    {next : Except Error (ℕ × Value) → Routine (Option BoxLockGuard)} {body : Value}
    (h : Covered ⟨holder, guards, front ++ .op (.execute req) next :: back⟩)
    (hsole : Sole ⟨holder, guards, front ++ .op (.execute req) next :: back⟩ (some req)) :
    Covered ⟨(lockService holder req).2, guards,
      front ++ next (.ok ((lockService holder req).1, body)) :: back⟩ := by
  obtain ⟨hguards, hcalls⟩ := h
  have hothers : ∀ call ∈ front ++ back, call ∈ front ++ .op (.execute req) next :: back := by
    intro call hcall
    simp only [List.mem_append, List.mem_cons] at hcall ⊢
    tauto
  have hwaiting := (hcalls (.op (.execute req) next) (by simp)).waiting rfl
  -- What a user has or is about to get stays, as the request is not a release of that user.
  have hkeeps : (∀ guard ∈ guards, (lockService holder req).2 = some guard.user) ∧
      ∀ call ∈ front ++ back, Expected (lockService holder req).2 call := by
    rcases hwaiting with ⟨user, rfl, -⟩ | ⟨user, rfl, -⟩
    · refine ⟨fun guard hguard => ?_, fun call hcall => ?_⟩
      · have hheld : holder = some guard.user := hguards guard hguard
        rw [hheld]
        exact lockService_lock_keeps guard.user user
      · refine (hcalls call (hothers call hcall)).mono ?_
        intro guard _ (hheld : holder = some guard.user)
        rw [hheld]
        exact lockService_lock_keeps guard.user user
    · obtain ⟨hheld, hpending⟩ := hsole user rfl
      refine ⟨fun guard hguard => ?_, fun call hcall => ?_⟩
      · have hholder : holder = some guard.user := hguards guard hguard
        rw [hholder]
        exact lockService_unlock_keeps (hheld guard hguard)
      · refine (hcalls call (hothers call hcall)).mono ?_
        rintro guard rfl (hholder : holder = some guard.user)
        rw [hholder]
        exact lockService_unlock_keeps (hpending guard (hothers _ hcall))
  have hserved : Expected (lockService holder req).2
      (next (.ok ((lockService holder req).1, body))) := by
    rcases hwaiting with ⟨user, rfl, rfl⟩ | ⟨user, rfl, rfl⟩
    · exact .done _ fun guard hguard => lockService_granted hguard
    · exact .done _ fun guard hguard => by cases hguard
  refine ⟨hkeeps.1, fun call hcall => ?_⟩
  rcases List.mem_append.mp hcall with hfront | hback
  · exact hkeeps.2 call (List.mem_append_left _ hfront)
  · rcases List.mem_cons.mp hback with rfl | hback
    · exact hserved
    · exact hkeeps.2 call (List.mem_append_right _ hback)

/-- A step leaves a bench covered, if releases keep to the condition. -/
theorem Covered.step {b b' : Bench} {served : Option HttpRequest} (h : Covered b)
    (hstep : Step b served b') (hsole : Sole b served) : Covered b' := by
  cases hstep with
  | lockGuard user =>
    refine ⟨h.guards, List.forall_mem_cons.mpr ⟨?_, h.calls⟩⟩
    rw [lockGuard_eq]
    exact .acquire user
  | @unlock holder front back guard calls =>
    refine ⟨fun g hg => h.guards g ?_, List.forall_mem_cons.mpr ⟨?_, h.calls⟩⟩
    · simp only [List.mem_append, List.mem_cons] at hg ⊢
      tauto
    · rw [guard.unlock_eq]
      exact .release guard.user
  | @drop holder front back guard calls =>
    refine ⟨fun g hg => h.guards g ?_, List.forall_mem_cons.mpr ⟨?_, h.calls⟩⟩
    · simp only [List.mem_append, List.mem_cons] at hg ⊢
      tauto
    · rw [guard.drop_eq]
      split_ifs
      · exact .done none fun g hg => by cases hg
      · exact .release guard.user
  | serve body => exact h.serve hsole
  | @«return» holder guards front back guard =>
    refine ⟨fun g hg => ?_, fun call hcall => h.calls call ?_⟩
    · rcases List.mem_append.mp hg with hreturned | hheld
      · have hdone := h.calls (.pure guard) (by simp)
        cases hdone with
        | done _ locked => exact locked g (Option.mem_toList.mp hreturned)
      · exact h.guards g hheld
    · simp only [List.mem_append, List.mem_cons] at hcall ⊢
      tauto

/-- The condition is exact: a step leaves a bench covered only if it keeps to it. -/
theorem covered_step_iff {b b' : Bench} {served : Option HttpRequest} (h : Covered b)
    (hstep : Step b served b') : Covered b' ↔ Sole b served := by
  refine ⟨fun h' => ?_, h.step hstep⟩
  intro user hserved
  subst hserved
  generalize hreq : some (unlockRequest user false) = served at hstep
  cases hstep with
  | lockGuard | unlock | drop | «return» => cases hreq
  | @serve holder guards front back req next body =>
    obtain rfl := Option.some.inj hreq
    have hfree : holder = some user →
        (lockService holder (unlockRequest user false)).2 = none := by
      intro hholder
      rw [lockService_unlock, if_pos (.inr hholder)]
    constructor
    · rintro guard hguard rfl
      have hlocked := h'.guards guard hguard
      rw [show _ = none from hfree (h.guards guard hguard)] at hlocked
      cases hlocked
    · rintro guard hguard rfl
      have hkept : .pure (some guard) ∈ front ++
          next (.ok ((lockService holder (unlockRequest guard.user false)).1, body)) :: back := by
        simp only [List.mem_append, List.mem_cons, reduceCtorEq, false_or] at hguard ⊢
        tauto
      have hlocked := (h'.calls _ hkept).locked
      rw [show _ = none from hfree (h.calls _ hguard).locked] at hlocked
      cases hlocked

/-- A run: steps one after the other that all meet a condition. -/
def Reaches (Meets : Bench → Option HttpRequest → Prop) : Bench → Bench → Prop :=
  Relation.ReflTransGen fun b b' => ∃ served, Step b served b' ∧ Meets b served

/-- **A guard means that the box is locked.** However the calls of all users overlap, as long as
each time the box is asked to unlock no other guard of that user is around, the box is locked for
the user of every guard there is.

**Proof sketch.** A step leaves a bench covered, by cases of the steps; a bench that nobody uses yet
is covered. -/
theorem locked_of_sole (holder : Option String) (b : Bench)
    (h : Reaches Sole ⟨holder, [], []⟩ b) : b.Locked := by
  have hcovered : Covered b := by
    induction h with
    | refl => exact covered_start holder
    | tail _ hstep ih =>
      obtain ⟨served, hstep, hsole⟩ := hstep
      exact ih.step hstep hsole
  exact hcovered.guards

/-! ## Runs with one guard and with two -/

/-- A free box, or one that is locked for a user, grants the user a guard. -/
theorem grants {Meets : Bench → Option HttpRequest → Prop} {holder : Option String} {user : String}
    {guards : List BoxLockGuard} (hholder : holder = none ∨ holder = some user)
    (hmeets : ∀ b served, (∀ user, served ≠ some (unlockRequest user false)) → Meets b served) :
    Reaches Meets ⟨holder, guards, []⟩ ⟨some user, ⟨user, false⟩ :: guards, []⟩ := by
  have hacquire : ∀ other, some (lockAcquire user "user" none) ≠
      some (unlockRequest other false) := by
    intro other heq
    have hpath := congrArg HttpRequest.path (Option.some.inj heq)
    simp [lockAcquire, unlockRequest] at hpath
  have hstart : Step ⟨holder, guards, []⟩ none ⟨holder, guards,
      [.op (.execute (lockAcquire user "user" none))
        fun answer => .pure (guardFor user answer)]⟩ := by
    rw [← lockGuard_eq]
    exact .lockGuard user
  have hserve : Step ⟨holder, guards,
      [.op (.execute (lockAcquire user "user" none)) fun answer => .pure (guardFor user answer)]⟩
      (some (lockAcquire user "user" none)) ⟨some user, guards, [.pure (some ⟨user, false⟩)]⟩ := by
    have hstep := @Step.serve holder guards [] [] (lockAcquire user "user" none)
      (fun answer => .pure (guardFor user answer)) (.object [])
    rw [lockService_lock, if_pos hholder] at hstep
    exact hstep
  have hreturn : Step ⟨some user, guards, [.pure (some ⟨user, false⟩)]⟩ none
      ⟨some user, ⟨user, false⟩ :: guards, []⟩ :=
    @Step.return (some user) guards [] [] (some ⟨user, false⟩)
  have hnone : ∀ b, Meets b none := fun b => hmeets b none fun other heq => by cases heq
  exact ((Relation.ReflTransGen.single ⟨none, hstart, hnone _⟩).tail
    ⟨_, hserve, hmeets _ _ hacquire⟩).tail ⟨none, hreturn, hnone _⟩

/-- A guard that is dropped frees the box. -/
theorem releases {Meets : Bench → Option HttpRequest → Prop} {user : String}
    {guards : List BoxLockGuard} (hnone : ∀ b, Meets b none)
    (hmeets : Meets ⟨some user, guards,
      [.op (.execute (unlockRequest user false)) fun _ => .pure none]⟩
      (some (unlockRequest user false))) :
    Reaches Meets ⟨some user, ⟨user, false⟩ :: guards, []⟩ ⟨none, guards, []⟩ := by
  have hdrop : Step ⟨some user, ⟨user, false⟩ :: guards, []⟩ none ⟨some user, guards,
      [.op (.execute (unlockRequest user false)) fun _ => .pure none]⟩ := by
    have hstep := @Step.drop (some user) [] guards ⟨user, false⟩ []
    rw [BoxLockGuard.drop_eq] at hstep
    exact hstep
  have hserve : Step ⟨some user, guards,
      [.op (.execute (unlockRequest user false)) fun _ => .pure none]⟩
      (some (unlockRequest user false)) ⟨none, guards, [.pure none]⟩ := by
    have hstep := @Step.serve (some user) guards [] [] (unlockRequest user false)
      (fun _ => .pure none) (.object [])
    rw [lockService_unlock, if_pos (.inr rfl)] at hstep
    exact hstep
  have hreturn : Step ⟨none, guards, [.pure none]⟩ none ⟨none, guards, []⟩ :=
    @Step.return none guards [] [] none
  exact ((Relation.ReflTransGen.single ⟨none, hdrop, hnone _⟩).tail
    ⟨_, hserve, hmeets⟩).tail ⟨none, hreturn, hnone _⟩

/-- A user locks the box and drops the guard, then another one locks it: each release finds no other
guard of its user, and the guard there is in the end means that the box is locked. -/
theorem locked_of_sole_granted :
    Reaches Sole ⟨some "ci", [⟨"ci", false⟩], []⟩ ⟨some "dev", [⟨"dev", false⟩], []⟩ ∧
      Locked ⟨some "dev", [⟨"dev", false⟩], []⟩ := by
  have hgranted : ∀ b served, (∀ user, served ≠ some (unlockRequest user false)) →
      Sole b served := fun _ _ hserved user huser => absurd huser (hserved user)
  have hsole : Sole ⟨some "ci", [],
      [.op (.execute (unlockRequest "ci" false)) fun _ => .pure none]⟩
      (some (unlockRequest "ci" false)) := by
    refine fun user _ => ⟨List.forall_mem_nil _, fun guard hguard => ?_⟩
    cases List.mem_singleton.mp hguard
  have hreleased : Reaches Sole ⟨some "ci", [⟨"ci", false⟩], []⟩
      ⟨some "dev", [⟨"dev", false⟩], []⟩ :=
    (releases (fun b => hgranted b none fun _ => nofun) hsole).trans (grants (.inl rfl) hgranted)
  exact ⟨hreleased, locked_of_sole none _ ((grants (.inl rfl) hgranted).trans hreleased)⟩

/-- A user with two guards drops one, and the box is free while there is the other. -/
theorem guard_without_lock : ¬ ∀ holder b, Reaches (fun _ _ => True) ⟨holder, [], []⟩ b →
    b.Locked := by
  intro hlocked
  have hgranted : Reaches (fun _ _ => True) ⟨none, [], []⟩
      ⟨some "ci", [⟨"ci", false⟩, ⟨"ci", false⟩], []⟩ :=
    (grants (.inl rfl) fun _ _ _ => trivial).trans (grants (.inr rfl) fun _ _ _ => trivial)
  have hreached := hgranted.trans (releases (fun _ => trivial) trivial)
  have hheld := hlocked none _ hreached ⟨"ci", false⟩ List.mem_cons_self
  cases hheld

end Bench

end Lager
