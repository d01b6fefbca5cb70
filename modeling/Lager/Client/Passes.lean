import Lager.Auth.Gateway

set_option relaxedAutoImplicit false
set_option autoImplicit false

/-!
# Passes: a request with the retry after a denial

Every way to the box is a pass: send the request with the current token; when the gateway denies
it, learn the auth server it names, and after a 401 send it once more with a token from there.
The crate has that three times, over a closure, over nested results and over an error variant.

## Main definitions

* `Lager.withGatewayAuth`, `Lager.tunnelAuthorized`, `Lager.streamDebug` — the three.
* `Lager.pass` — what they have in common.

## Main results

* `Lager.withGatewayAuth_eq_pass`, `Lager.tunnelAuthorized_eq_pass`,
  `Lager.streamDebug_eq_pass` — each of the three is that.

## Implementation notes

The two clients differ in how they resolve tokens and in what they make of the answer to one
request; both are parameters here.
-/

namespace Lager

open Library

variable {α : Type}

/-! ## The passes of the clients -/

/-- `Refusal`: what an attempt at a tunnel came to, short of an open one. The body is not
decoded. -/
inductive Refusal
  | denied (status : ℕ) (authUrl : String)
  | notDebugPort (body : List UInt8)
  | nothingListening (body : List UInt8)
  | unsupported (status : Option ℕ)
  deriving DecidableEq, Repr

section

variable [SerdeJson] (auth : GatewayAuth)
  (resolve : String → Option String → Action (Option String))

/-- `with_gateway_auth`: `send` returns the status, the auth server of a denial and the body. -/
def withGatewayAuth
    (send : Option String → Program Op Op.Ans (Except Error (ℕ × Option String × α))) :
    Action (Except Error (ℕ × α)) := do
  let token ← auth.currentToken resolve
  match ← send token with
  | .error err => return .error err
  | .ok (status, none, body) => return .ok (status, body)
  | .ok (status, some authUrl, _) =>
    auth.learnAuthServer authUrl
    if status = 401 ∧ ¬ auth.hasStaticToken then
      match ← resolve authUrl token with
      | some fresh =>
        match ← send (some fresh) with
        | .error err => return .error err
        | .ok (status, none, body) => return .ok (status, body)
        | .ok (status, some authUrl, _) =>
          return .error (denialError status auth.boxHost authUrl true)
      | none => return .error (denialError status auth.boxHost authUrl token.isSome)
    else return .error (denialError status auth.boxHost authUrl token.isSome)

/-- `tunnel_authorized`: `once` is one `CONNECT`. -/
def tunnelAuthorized
    (once : Option String → Program Op Op.Ans (Except Error (Except Refusal α))) :
    Action (Except Error (Except Refusal α)) := do
  let token ← auth.currentToken resolve
  match ← once token with
  | .ok (.error (.denied status authUrl)) =>
    auth.learnAuthServer authUrl
    let fresh ← if status = 401 ∧ ¬ auth.hasStaticToken then resolve authUrl token else pure none
    match fresh with
    | none => return .error (denialError status auth.boxHost authUrl token.isSome)
    | some fresh =>
      match ← once (some fresh) with
      | .ok (.error (.denied status authUrl)) =>
        return .error (denialError status auth.boxHost authUrl true)
      | other => return other
  | other => return other

/-- `stream_debug`: `once` is one request, which learns the auth server of a denial itself. -/
def streamDebug (once : Option String → Action (Except Error α)) : Action (Except Error α) := do
  let token ← auth.currentToken resolve
  match ← once token with
  | .error (.authRequired boxHost authUrl message) =>
    if auth.hasStaticToken then return .error (.authRequired boxHost authUrl message)
    else
      match ← resolve authUrl token with
      | some fresh => once (some fresh)
      | none => return .error (.authRequired boxHost authUrl message)
  | other => return other

/-! ## What they have in common -/

end

/-- What one attempt of a pass comes to. -/
inductive Attempt (α : Type)
  | answered (a : α)
  | denied (status : ℕ) (authUrl : String)
  | failed (err : Error)

variable [SerdeJson] (auth : GatewayAuth)
  (resolve : String → Option String → Action (Option String))

/-- The token to try again with after a denial: only after a 401, and never for a pinned token. -/
def retryToken (status : ℕ) (authUrl : String) (token : Option String) :
    Action (Option String) :=
  if status = 401 ∧ ¬ auth.hasStaticToken then resolve authUrl token else pure none

/-- A pass: an attempt with the current token, and after a 401 one more with a token of the auth
server the gateway named. With `learnsAgain`, the auth server of a second denial is learned too. -/
def pass (learnsAgain : Bool) (attempt : Option String → Program Op Op.Ans (Attempt α)) :
    Action (Except Error α) := do
  let token ← auth.currentToken resolve
  match ← attempt token with
  | .answered a => return .ok a
  | .failed err => return .error err
  | .denied status authUrl =>
    auth.learnAuthServer authUrl
    match ← retryToken auth resolve status authUrl token with
    | none => return .error (denialError status auth.boxHost authUrl token.isSome)
    | some fresh =>
      match ← attempt (some fresh) with
      | .answered a => return .ok a
      | .failed err => return .error err
      | .denied status authUrl =>
        if learnsAgain then auth.learnAuthServer authUrl
        return .error (denialError status auth.boxHost authUrl true)

/-- What `with_gateway_auth` makes of the answer to a request. -/
def Attempt.ofSend : Except Error (ℕ × Option String × α) → Attempt (ℕ × α)
  | .error err => .failed err
  | .ok (status, none, body) => .answered (status, body)
  | .ok (status, some authUrl, _) => .denied status authUrl

/-- What `tunnel_authorized` makes of the answer to a `CONNECT`. -/
def Attempt.ofTunnel : Except Error (Except Refusal α) → Attempt (Except Refusal α)
  | .error err => .failed err
  | .ok (.error (.denied status authUrl)) => .denied status authUrl
  | .ok other => .answered other

/-- What `stream_debug_once` does after an attempt: it learns the auth server of a denial. -/
def streamDebugOnce (auth : GatewayAuth)
    (attempt : Option String → Program Op Op.Ans (Attempt α)) (token : Option String) :
    Action (Except Error α) := do
  match ← attempt token with
  | .answered a => return .ok a
  | .failed err => return .error err
  | .denied status authUrl =>
    auth.learnAuthServer authUrl
    return .error (denialError status auth.boxHost authUrl token.isSome)

/-- `with_gateway_auth` is a pass. -/
theorem withGatewayAuth_eq_pass
    (send : Option String → Program Op Op.Ans (Except Error (ℕ × Option String × α))) :
    withGatewayAuth auth resolve send =
      pass auth resolve false fun token => Attempt.ofSend <$> send token := by
  unfold withGatewayAuth pass
  refine bind_congr fun token => ?_
  simp only [liftM_map, bind_map_left]
  refine bind_congr fun answer => ?_
  rcases answer with err | ⟨status, _ | authUrl, body⟩
  · rfl
  · rfl
  · refine bind_congr fun _ => ?_
    unfold retryToken
    by_cases hretry : status = 401 ∧ ¬ auth.hasStaticToken = true
    · rw [if_pos hretry, if_pos hretry]
      refine bind_congr fun fresh => ?_
      rcases fresh with _ | fresh
      · rfl
      · dsimp only
        refine bind_congr fun answer => ?_
        rcases answer with err | ⟨status, _ | authUrl, body⟩ <;> rfl
    · rw [if_neg hretry, if_neg hretry]
      rfl

/-- `tunnel_authorized` is a pass. -/
theorem tunnelAuthorized_eq_pass
    (once : Option String → Program Op Op.Ans (Except Error (Except Refusal α))) :
    tunnelAuthorized auth resolve once =
      pass auth resolve false fun token => Attempt.ofTunnel <$> once token := by
  unfold tunnelAuthorized pass
  refine bind_congr fun token => ?_
  simp only [liftM_map, bind_map_left]
  refine bind_congr fun answer => ?_
  rcases answer with err | ⟨⟨status, authUrl⟩ | _ | _ | _⟩ | a
  · rfl
  · refine bind_congr fun _ => ?_
    unfold retryToken
    by_cases hretry : status = 401 ∧ ¬ auth.hasStaticToken = true
    · rw [if_pos hretry, if_pos hretry]
      refine bind_congr fun fresh => ?_
      rcases fresh with _ | fresh
      · rfl
      · dsimp only
        refine bind_congr fun answer => ?_
        rcases answer with err | ⟨⟨status, authUrl⟩ | _ | _ | _⟩ | a <;> rfl
    · rw [if_neg hretry, if_neg hretry]
      rfl
  · rfl
  · rfl
  · rfl
  · rfl

/-- `stream_debug` is a pass, when the failures of an attempt do not ask for a sign-in. -/
theorem streamDebug_eq_pass (attempt : Option String → Program Op Op.Ans (Attempt α))
    (h : ∀ token, Always (attempt token) fun _ a => ∀ b u m, a ≠ .failed (.authRequired b u m)) :
    streamDebug auth resolve (streamDebugOnce auth attempt) =
      pass auth resolve true attempt := by
  unfold streamDebug pass
  refine bind_congr fun token => ?_
  rw [streamDebugOnce, bind_assoc]
  refine (h token).lift_bind_congr fun answer hanswer => ?_
  rcases answer with a | ⟨status, authUrl⟩ | err
  · rfl
  · dsimp only
    rw [bind_assoc]
    refine bind_congr fun _ => ?_
    rw [pure_bind]
    unfold retryToken
    by_cases hstatus : status = 401
    · subst hstatus
      by_cases hpinned : auth.hasStaticToken = true
      · rw [if_neg (by simp [hpinned])]
        show (if _ then _ else _) = _
        rw [if_pos hpinned]
        rfl
      · rw [if_pos ⟨rfl, hpinned⟩]
        show (if _ then _ else _) = _
        rw [if_neg hpinned]
        refine bind_congr fun fresh => ?_
        rcases fresh with _ | fresh
        · rfl
        · refine bind_congr fun answer => ?_
          rcases answer with a | ⟨status, authUrl⟩ | err <;> rfl
    · rw [if_neg (fun h => hstatus h.1)]
      have hne := denialError_of_ne hstatus auth.boxHost authUrl token.isSome
      generalize denialError status auth.boxHost authUrl token.isSome = err at hne
      cases err <;> first | rfl | exact absurd rfl (hne _ _ _)
  · cases err <;> first | rfl | exact absurd rfl (hanswer _ _ _)

end Lager
