import Lager.Client.Answers
import Lager.Client.CurrentServer
import Lager.Library.Linear

set_option relaxedAutoImplicit false
set_option autoImplicit false

/-!
# Requests take effect once

A pass may send its request twice: a gateway denies the first, and the client signs in and sends it
again. What the gateway denies does not reach the box. So whatever happens on the way, a pass comes
to one request made of the box directly, or to none where it is denied or gets no answer. Over any
number of clients, whose passes overlap in any way, the box goes where it would with one call after
another.

## Main definitions

* `Lager.Command` — what a box is asked to do.
* `Lager.Affects` — what an event does to a box behind a gateway.
* `Lager.Direct` — a call of the box itself, with what it returns.
* `Lager.Transport.Makes` — a client that makes calls.

## Main results

* `Lager.Transport.pass_takesEffect` — a pass is a direct call at one of its events.
* `Lager.requests_once` — the calls of any number of clients, one after another.

## Implementation notes

A box is any relation between its states: the command, the state after it and the reply. An answer
with the header of a denial is the gateway's own. Tunnels and RTT streams are left out: they go on
after their head.
-/

namespace Lager

open Library

variable {α σ : Type}

/-! ## A box behind a gateway -/

/-- What a box is asked to do. -/
structure Command where
  method : Method
  url : String
  body : Option Payload

/-- What a request asks the box to do. The token is for the gateway. -/
def Request.command (r : Request) : Command := ⟨r.method, r.url, r.body⟩

/-- What arrives of a reply: all of it, or all but the body. -/
def Arrives (reply resp : Response) : Prop :=
  resp = reply ∨ ∃ failure, resp = { reply with body := .error failure }

section

variable (serves : σ → Command → σ → Response → Prop)

/-- What an event does to a box behind a gateway. What the gateway denies does not reach the box;
the reply of the box may be lost, and so may the request. A socket of its own may do anything. -/
def Affects (b : σ) (e : Event) (b' : σ) : Prop :=
  match e.denial, e with
  | some _, _ => b' = b
  | none, ⟨.request r, .ok resp⟩ => ∃ reply, serves b r.command b' reply ∧ Arrives reply resp
  | none, ⟨.request r, .error _⟩ => b' = b ∨ ∃ reply, serves b r.command b' reply
  | none, ⟨.exchange _, _⟩ => True
  | none, _ => b' = b

/-- An event that leaves the box alone: no request to it, or one that the gateway denied. -/
def Aside (e : Event) : Prop := e.bearer = none ∨ e.denial ≠ none

variable {serves}

/-- The status of a denial is one of a denial. -/
theorem isDenial_of_denial {e : Event} {status : ℕ} {authUrl : String}
    (h : e.denial = some (status, authUrl)) : isDenial status = true := by
  unfold Event.denial at h
  split at h
  · obtain ⟨url, hgate, heq⟩ := Option.map_eq_some_iff.mp h
    obtain ⟨rfl, rfl⟩ := Prod.mk.inj heq
    unfold gatewayDenial at hgate
    split_ifs at hgate with hstatus
    exact hstatus
  · obtain ⟨url, hgate, heq⟩ := Option.map_eq_some_iff.mp h
    obtain ⟨rfl, rfl⟩ := Prod.mk.inj heq
    unfold Head.denial at hgate
    split_ifs at hgate with hstatus
    exact hstatus
  · cases h

/-- What the gateway denies does not reach the box. -/
theorem Affects.of_denial {b b' : σ} {e : Event} (h : Affects serves b e b')
    (hdenial : e.denial ≠ none) : b' = b := by
  unfold Affects at h
  split at h
  · exact h
  all_goals contradiction

/-- What leaves the box alone does. -/
theorem Affects.of_aside {b b' : σ} {e : Event} (h : Affects serves b e b') (haside : Aside e) :
    b' = b := by
  rcases haside with hbearer | hdenial
  · obtain ⟨op, answer⟩ := e
    cases op with
    | request r => cases hbearer
    | exchange r => cases hbearer
    | _ => exact h
  · exact h.of_denial hdenial

end

/-! ## Calls of a box -/

/-- What a blocking client asks for in a JSON request. -/
def LagerBox.jsonCommand (base : String) (req : HttpRequest) : Command :=
  ⟨req.method, base ++ req.path, match req.method with
    | .post | .put => req.body.map Payload.json
    | _ => none⟩

/-- What an async client asks for. -/
def AsyncLagerBox.jsonCommand (base : String) (req : HttpRequest) : Command :=
  ⟨req.method, base ++ req.path, req.body.map Payload.json⟩

namespace Transport

/-- What a client asks for in a JSON request. -/
def jsonCommand : Transport → String → HttpRequest → Command
  | blocking => LagerBox.jsonCommand
  | async => AsyncLagerBox.jsonCommand

/-- What a client asks the box to do in a pass, if it is a JSON or a raw request. -/
def command (t : Transport) (client : Client) : Pass → Option Command
  | .execute req => some (t.jsonCommand client.base req)
  | .executeDebug req => some (t.jsonCommand client.debugBase req)
  | .executeRaw req =>
    some ⟨req.method, client.base ++ req.path, req.body.map fun b => .raw b.1 b.2⟩
  | .tunnelAuthorized _ | .streamDebug _ => none

/-- A pass returns what a client makes of an answer. -/
def Tells [SerdeJson] (t : Transport) : PassEvent → Except Failure Response → Prop
  | ⟨.execute _, result⟩, answer | ⟨.executeDebug _, result⟩, answer =>
    result = undenied (t.readSent answer)
  | ⟨.executeRaw _, result⟩, answer => result = undenied (t.readRaw answer)
  | _, _ => False

end Transport

/-- A call of the box itself. It returns what the client makes of the reply. Without an answer the
box may have done it or not, and it returns what the client makes of that failure. Or a gateway
denies it, which leaves the box as it is, and it returns the denial, or what the client makes of a
denial that it could not read to its end. -/
inductive Direct [SerdeJson] (serves : σ → Command → σ → Response → Prop) (t : Transport)
    (client : Client) (b : σ) : PassEvent → σ → Prop
  | answered {p : Pass} {result : p.Ans} {c : Command} {b' : σ} {reply resp : Response}
      (asked : t.command client p = some c) (served : serves b c b' reply)
      (arrives : Arrives reply resp) (told : t.Tells ⟨p, result⟩ (.ok resp)) :
      Direct serves t client b ⟨p, result⟩ b'
  | unanswered {p : Pass} {result : p.Ans} {c : Command} {b' : σ} {reply : Response}
      {failure : Failure} (asked : t.command client p = some c) (served : serves b c b' reply)
      (told : t.Tells ⟨p, result⟩ (.error failure)) : Direct serves t client b ⟨p, result⟩ b'
  | undelivered {p : Pass} {result : p.Ans} {failure : Failure}
      (told : t.Tells ⟨p, result⟩ (.error failure)) : Direct serves t client b ⟨p, result⟩ b
  | denied {p : Pass} {status : ℕ} {authUrl : String} {sentToken : Bool}
      (denial : isDenial status = true) : Direct serves t client b
        ⟨p, .error (denialError status client.auth.boxHost authUrl sentToken)⟩ b
  | deniedUnread {p : Pass} {err : Error} {resp : Response} (denial : gatewayDenial resp ≠ none)
      (told : t.Tells ⟨p, .error err⟩ (.ok resp)) : Direct serves t client b ⟨p, .error err⟩ b

/-! ## Where a pass takes effect -/

/-- An attempt is one event: the gateway denies it, or the attempt comes to what it says. -/
def Attempt.Lands (Says : Event → Except Error α → Prop) (events : List Event) :
    Attempt α → Prop
  | .answered x => ∃ e, events = [e] ∧ Says e (.ok x)
  | .failed err => ∃ e, events = [e] ∧ Says e (.error err)
  | .denied status authUrl => ∃ e, events = [e] ∧ e.denial = some (status, authUrl)

/-- At one event a pass comes to what it returns, and the others leave the box alone. -/
def Lands (boxHost : String) (Says : Event → Except Error α → Prop) (events : List Event)
    (result : Except Error α) : Prop :=
  ∃ front e back, events = front ++ e :: back ∧ (∀ x ∈ front, Aside x) ∧ (∀ x ∈ back, Aside x) ∧
    (Says e result ∨ ∃ status authUrl sentToken, e.denial = some (status, authUrl) ∧
      result = .error (denialError status boxHost authUrl sentToken))

/-- What is quiet leaves the box alone. -/
theorem Quiet.aside {events : List Event} (h : Quiet events) : ∀ x ∈ events, Aside x :=
  fun x hx => .inl (h x hx)

/-- **Where a pass takes effect.** Over attempts that send one request each, a pass has one event at
which it comes to what it returns, and all others leave the box alone.

**Proof sketch.** That event is the last request. The one before was denied, and to get tokens
nothing goes to the box. -/
theorem pass_lands [SerdeJson] (auth : GatewayAuth) (accepts : ℕ → Bool)
    {Says : Event → Except Error α → Prop}
    {attempt : Option String → Program Op Op.Ans (Attempt α)}
    (hattempt : ∀ token, Always (attempt token) fun events a => a.Lands Says events)
    (learnsAgain : Bool) (s : GatewayAuth.State) :
    Always ((pass auth (auth.resolveToken (refreshWith accepts)) learnsAgain attempt).run s)
      fun events r => Lands auth.boxHost Says events r.1 := by
  simp only [pass, StateT.run_bind, StateT.run_monadLift, monadLift_self, always_bind, always_pure]
  refine (auth.currentToken_spec accepts s).mono fun asked now hnow => ?_
  obtain ⟨token, s₁⟩ := now
  have hasked := hnow.quiet.aside
  refine (hattempt token).mono fun events a hfirst => ?_
  rcases a with x | ⟨status, authUrl⟩ | err
  · obtain ⟨e, rfl, hcomes⟩ := hfirst
    exact ⟨asked, e, [], by simp, hasked, List.forall_mem_nil _, .inl hcomes⟩
  · obtain ⟨e, rfl, hdenial⟩ := hfirst
    have haside : Aside e := .inr (hdenial ▸ Option.some_ne_none _)
    simp only [StateT.run_bind, always_bind]
    refine (auth.learnAuthServer_spec authUrl s₁).mono fun learned r hlearns => ?_
    refine (tries_spec auth accepts status authUrl token r.2).mono fun tried r' htries => ?_
    have hbetween : ∀ x ∈ learned ++ tried, Aside x :=
      List.forall_mem_append.mpr ⟨hlearns.quiet.aside, htries.quiet.aside⟩
    obtain ⟨_ | fresh, s₃⟩ := r'
    · exact ⟨asked, e, learned ++ tried, by simp, hasked, hbetween,
        .inr ⟨_, _, _, hdenial, rfl⟩⟩
    · simp only [StateT.run_bind, StateT.run_monadLift, monadLift_self, always_bind, always_pure]
      refine (hattempt (some fresh)).mono fun events a hsecond => ?_
      have hfront : ∀ x ∈ asked ++ e :: (learned ++ tried), Aside x :=
        List.forall_mem_append.mpr ⟨hasked, List.forall_mem_cons.mpr ⟨haside, hbetween⟩⟩
      rcases a with x | ⟨status', authUrl'⟩ | err
      · obtain ⟨e', rfl, hcomes⟩ := hsecond
        exact ⟨_, e', [], by simp, hfront, List.forall_mem_nil _, .inl hcomes⟩
      · obtain ⟨e', rfl, hdenial'⟩ := hsecond
        cases learnsAgain
        · exact ⟨_, e', [], by simp, hfront, List.forall_mem_nil _,
            .inr ⟨_, _, _, hdenial', rfl⟩⟩
        · simp only [if_true, StateT.run_bind, always_bind]
          refine (auth.learnAuthServer_spec authUrl' s₃).mono fun learned' r hlearns' => ?_
          exact ⟨_, e', learned', by simp, hfront, hlearns'.quiet.aside,
            .inr ⟨_, _, _, hdenial', rfl⟩⟩
      · obtain ⟨e', rfl, hcomes⟩ := hsecond
        exact ⟨_, e', [], by simp, hfront, List.forall_mem_nil _, .inl hcomes⟩
  · obtain ⟨e, rfl, hcomes⟩ := hfirst
    exact ⟨asked, e, [], by simp, hasked, List.forall_mem_nil _, .inl hcomes⟩

section

variable [SerdeJson]

/-- A pass comes to what an event says: the event is its request, with the answer it returns. An
answer that is a denial is not returned. -/
def AsksAndTells (t : Transport) (client : Client) (p : Pass) (e : Event) (result : p.Ans) : Prop :=
  ∃ r answer, e = ⟨.request r, answer⟩ ∧ t.command client p = some r.command ∧
    t.Tells ⟨p, result⟩ answer ∧ ∀ x, result = .ok x → e.denial = none

omit [SerdeJson] in
/-- An attempt with one request comes to what the answer says. -/
theorem always_lands {read : Except Failure Response → Except Error (ℕ × Option String × α)}
    (hread : ∀ answer status gateway x, read answer = .ok (status, gateway, x) →
      ∃ resp, answer = .ok resp ∧ status = resp.status ∧ gateway = gatewayDenial resp) (r : Request)
    {Says : Event → Except Error (ℕ × α) → Prop}
    (hcomes : ∀ answer (result : Except Error (ℕ × α)), result = undenied (read answer) →
      (∀ x, result = .ok x → Event.denial ⟨.request r, answer⟩ = none) →
      Says ⟨.request r, answer⟩ result) :
    Always (Attempt.ofSend <$> (read <$> request r)) fun events a => a.Lands Says events := by
  rw [always_map, always_map, always_request]
  intro answer
  rcases hanswer : read answer with err | ⟨status, _ | authUrl, body⟩
  · exact ⟨_, rfl, hcomes answer _ (by rw [hanswer]; rfl) (by rintro x ⟨⟩)⟩
  · obtain ⟨resp, rfl, -, hgateway⟩ := hread _ _ _ _ hanswer
    refine ⟨_, rfl, hcomes (.ok resp) _ (by rw [hanswer]; rfl) fun x _ => ?_⟩
    rw [denial_request, ← hgateway]
    rfl
  · obtain ⟨resp, rfl, rfl, hgateway⟩ := hread _ _ _ _ hanswer
    refine ⟨_, rfl, ?_⟩
    rw [denial_request, ← hgateway]
    rfl

/-- What `send_once` reads has the denial of the answer. -/
theorem Transport.gateway_of_readSent (t : Transport) (answer : Except Failure Response)
    (status : ℕ) (gateway : Option String) (body : Value)
    (h : t.readSent answer = .ok (status, gateway, body)) :
    ∃ resp, answer = .ok resp ∧ status = resp.status ∧ gateway = gatewayDenial resp := by
  have hchecked : ∀ {resp : Response} {x : Value},
      checkBody resp.status (gatewayDenial resp) x = .ok (status, gateway, body) →
        status = resp.status ∧ gateway = gatewayDenial resp := by
    intro resp x h
    unfold checkBody at h
    split at h
    · split_ifs at h
      cases h
      exact ⟨rfl, rfl⟩
    · cases h
      exact ⟨rfl, rfl⟩
  rcases answer with failure | resp
  · cases t <;> cases h
  · refine ⟨resp, rfl, ?_⟩
    cases t
    · simp only [readSent, LagerBox.readSent] at h
      split at h
      · cases h
      · exact hchecked h
    · simp only [readSent, AsyncLagerBox.readSent] at h
      split at h
      · cases h
      · exact hchecked h

omit [SerdeJson] in
/-- So has what `send_raw_once` reads. -/
theorem Transport.gateway_of_readRaw (t : Transport) (answer : Except Failure Response)
    (status : ℕ) (gateway : Option String) (bytes : List UInt8)
    (h : t.readRaw answer = .ok (status, gateway, bytes)) :
    ∃ resp, answer = .ok resp ∧ status = resp.status ∧ gateway = gatewayDenial resp := by
  rcases answer with failure | resp
  · cases t <;> cases h
  · refine ⟨resp, rfl, ?_⟩
    cases t
    · simp only [readRaw, LagerBox.readRaw] at h
      split at h
      · cases h
      · cases h
        exact ⟨rfl, rfl⟩
    · simp only [readRaw, AsyncLagerBox.readRaw] at h
      split at h
      · cases h
      · cases h
        exact ⟨rfl, rfl⟩

/-- A JSON or a raw pass comes to what one of its requests says. -/
theorem Transport.pass_lands (t : Transport) (client : Client) {p : Pass} {c : Command}
    (hp : t.command client p = some c) (s : GatewayAuth.State) :
    Always ((t.pass client p).run s) fun events r =>
      Lands client.auth.boxHost (AsksAndTells t client p) events r.1 := by
  rw [t.pass_eq client p]
  cases p with
  | execute req | executeDebug req =>
    refine @Lager.pass_lands _ _ _ _ (AsksAndTells t client _) _ (fun token => ?_) _ s
    cases t
    · exact always_lands (Transport.blocking.gateway_of_readSent) _
        fun answer result hresult hok => ⟨_, answer, rfl, rfl, hresult, hok⟩
    · exact always_lands (Transport.async.gateway_of_readSent) _
        fun answer result hresult hok => ⟨_, answer, rfl, rfl, hresult, hok⟩
  | executeRaw req =>
    refine @Lager.pass_lands _ _ _ _ (AsksAndTells t client _) _ (fun token => ?_) _ s
    cases t
    · exact always_lands (Transport.blocking.gateway_of_readRaw) _
        fun answer result hresult hok => ⟨_, answer, rfl, rfl, hresult, hok⟩
    · exact always_lands (Transport.async.gateway_of_readRaw) _
        fun answer result hresult hok => ⟨_, answer, rfl, rfl, hresult, hok⟩
  | tunnelAuthorized | streamDebug => cases hp

variable {serves : σ → Command → σ → Response → Prop} {t : Transport} {client : Client} {p : Pass}

/-- At the event at which a pass comes to what it returns, it is a direct call. -/
theorem Direct.of_asksAndTells {e : Event} {result : p.Ans} (h : AsksAndTells t client p e result)
    {b b' : σ} (hbox : Affects serves b e b') : Direct serves t client b ⟨p, result⟩ b' := by
  obtain ⟨r, answer, rfl, hcommand, htells, hok⟩ := h
  by_cases hdenial : Event.denial ⟨.request r, answer⟩ = none
  · unfold Affects at hbox
    rcases answer with failure | resp
    · rcases hbox with rfl | ⟨reply, hserved⟩
      · exact .undelivered htells
      · exact .unanswered hcommand hserved htells
    · simp only [hdenial] at hbox
      obtain ⟨reply, hserved, harrives⟩ := hbox
      exact .answered hcommand hserved harrives htells
  -- A denial is not returned, so it was not read to its end.
  · obtain rfl := hbox.of_denial hdenial
    rcases answer with failure | resp
    · exact absurd rfl hdenial
    · have hgate : gatewayDenial resp ≠ none := by
        intro hnone
        rw [denial_request, hnone] at hdenial
        exact hdenial rfl
      rcases result with err | x
      · exact .deniedUnread hgate htells
      · exact absurd (hok x rfl) hdenial

/-- **A pass takes effect once.** Every JSON or raw pass of either client is a direct call of the
box at one of its events, and does nothing to it at the others. -/
theorem Transport.pass_takesEffect (hp : (t.command client p).isSome) (s : GatewayAuth.State) :
    Always ((t.pass client p).run s) fun events r =>
      TakesEffect (Affects serves) (Direct serves t client) ⟨p, r.1⟩ events := by
  obtain ⟨c, hc⟩ := Option.isSome_iff_exists.mp hp
  refine (t.pass_lands client hc s).mono fun events r hlands => ?_
  obtain ⟨front, e, back, rfl, hfront, hback, hend⟩ := hlands
  refine ⟨front, e, back, rfl, fun x hx b b' h => h.of_aside (hfront x hx), fun b b' h => ?_,
    fun x hx b b' h => h.of_aside (hback x hx)⟩
  rcases hend with hcomes | ⟨status, authUrl, sentToken, hdenial, herr⟩
  · exact .of_asksAndTells hcomes h
  · obtain rfl := h.of_denial (hdenial ▸ Option.some_ne_none _)
    rw [herr]
    exact .denied (isDenial_of_denial hdenial)

/-! ## Any number of clients -/

/-- Calls of a client one after another, each with what it returns and its events. -/
inductive Transport.Makes (t : Transport) (client : Client) :
    GatewayAuth.State → List PassEvent → List (List Event) → GatewayAuth.State → Prop
  | nil (s : GatewayAuth.State) : Makes t client s [] [] s
  | cons {s s' s'' : GatewayAuth.State} {p : Pass} {result : p.Ans} {events : List Event}
      {calls : List PassEvent} {parts : List (List Event)}
      (call : Run ((t.pass client p).run s) events (result, s'))
      (rest : Makes t client s' calls parts s'') :
      Makes t client s (⟨p, result⟩ :: calls) (events :: parts) s''

/-- The calls of a client take effect once. -/
theorem Transport.Makes.takeEffect {s s' : GatewayAuth.State} {calls : List PassEvent}
    {parts : List (List Event)} (h : t.Makes client s calls parts s')
    (hcalls : ∀ c ∈ calls, (t.command client c.1).isSome) :
    List.Forall₂ (TakesEffect (Affects serves) (Direct serves t client)) calls parts := by
  induction h with
  | nil => exact .nil
  | cons call _ ih =>
    rw [List.forall_mem_cons] at hcalls
    exact .cons (always_iff_run.mp (Transport.pass_takesEffect hcalls.1 _) _ _ call) (ih hcalls.2)

end

/-- **Requests take effect once.** Let any number of clients make JSON and raw requests of a box
behind a gateway, with their operations interleaved in any way: tokens are refreshed, requests are
denied and sent again, and answers are lost. Then the box goes where it would if the requests were
made of it directly, one after another, in some order that keeps the requests of each client in
turn: each is made once and returns what the client makes of the reply, but one that a gateway
denies in the end is not made, and one that gets no answer is made or not and returns what the
client makes of that failure. And at every moment the box is where those requests take it that come
before some point of the order: all that have returned by then, and none that has not begun.

**Proof sketch.** A pass takes effect at its last request: the gateway denied the one before, and
what else happens does not go to the box. So the calls are linearized at these. -/
theorem requests_once [SerdeJson] {ι : Type} [DecidableEq ι]
    (serves : σ → Command → σ → Response → Prop) (t : ι → Transport) (client : ι → Client)
    (s s' : ι → GatewayAuth.State) (calls : ι → List PassEvent) (parts : ι → List (List Event))
    (hmakes : ∀ i, (t i).Makes (client i) (s i) (calls i) (parts i) (s' i))
    (hcalls : ∀ i, ∀ c ∈ calls i, ((t i).command (client i) c.1).isSome)
    (l : List (ι × Event)) (hlanes : ∀ i, lane i l = (parts i).flatten) (b b' : σ)
    (hbox : Steps (Affects serves) b (l.map Prod.snd) b') :
    ∃ order : List (ι × PassEvent), (∀ i, lane i order = calls i) ∧
      Steps (fun b x b' => Direct serves (t x.1) (client x.1) b x.2 b') b order b' ∧
      ∀ front back m, l = front ++ back → Steps (Affects serves) b (front.map Prod.snd) m →
        ∃ before after, order = before ++ after ∧
          Steps (fun b x b' => Direct serves (t x.1) (client x.1) b x.2 b') b before m ∧
          ∀ i, InTime (calls i) (parts i) (lane i front) (lane i before) :=
  linearize (fun i => (hmakes i).takeEffect (hcalls i)) hlanes hbox

/-! ## Two clients of one box -/

/-- A box that counts the commands it serves. -/
def counts (n : ℕ) (_ : Command) (n' : ℕ) (reply : Response) : Prop :=
  n' = n + 1 ∧ reply = ⟨200, false, [], .ok []⟩

/-- A raw request that deletes the nets of a box. -/
def clearNets : Pass := .executeRaw ⟨.delete, "/nets", none, .default⟩

/-- The request as it is sent. -/
def askClearNets (token : Option String) : Op :=
  .request ⟨.delete, "http://box:9000/nets", token, none, some 30⟩

/-- What one client does: it is denied, refreshes its session, and sends its request again. -/
def clearsAgain : List Event :=
  [⟨askClearNets none, .ok (gatewayDenies 401 97)⟩, ⟨.loadStore, signedIn⟩,
    ⟨.saveStore ((learnBox "box" "http://a" signedIn).getD .null), ()⟩, ⟨.loadStore, signedIn⟩,
    ⟨.refresh "http://a" "c=1", .ok ⟨200, false, [], .ok refreshed⟩⟩, ⟨.loadStore, signedIn⟩,
    ⟨.saveStore signedInAgain, ()⟩, ⟨askClearNets (some "t"), .ok ⟨200, false, [], .ok []⟩⟩]

/-- What another does: its request is let through. -/
def clears : List Event := [⟨askClearNets none, .ok ⟨200, false, [], .ok []⟩⟩]

/-- Each makes the request once. -/
def clearCalls (_ : Bool) : List PassEvent := [⟨clearNets, .ok (200, [])⟩]

/-- A blocking client is denied, an async client makes its request, and the blocking client makes
its own again: the box has served two commands. -/
theorem requests_once_clearNets :
    letI := refreshParser
    ∃ order : List (Bool × PassEvent), (∀ i, lane i order = clearCalls i) ∧
      Steps (fun b x b' => Direct counts (if x.1 then .blocking else .async) unpinned b x.2 b') 0
        order 2 := by
  let _ := refreshParser
  refine (requests_once counts
    (fun i => if i then .blocking else .async) (fun _ : Bool => unpinned) (fun _ => ⟨none, none⟩)
    (fun i => if i then ⟨some "http://a", some "t"⟩ else ⟨none, none⟩) clearCalls
    (fun i => if i then [clearsAgain] else [clears]) (fun i => ?_) (fun i c hc => ?_)
    ((clearsAgain.take 1).map (Prod.mk true) ++ clears.map (Prod.mk false) ++
      (clearsAgain.drop 1).map (Prod.mk true)) (fun i => ?_) 0 2 ?_).imp
    fun order h => ⟨h.1, h.2.1⟩
  · cases i
    · exact .cons (.op _ (.pure _)) (.nil _)
    · exact .cons (.op _ (.op _ (.op _ (.op _ (.op _ (.op _ (.op _ (.op _ (.pure _))))))))) (.nil _)
  · obtain rfl := List.mem_singleton.mp hc
    cases i <;> rfl
  · cases i <;> rfl
  · have hserved : ∀ n token, Affects counts n
        ⟨askClearNets token, .ok ⟨200, false, [], .ok []⟩⟩ (n + 1) :=
      fun n token => ⟨_, ⟨rfl, rfl⟩, .inl rfl⟩
    exact .cons rfl (.cons (hserved 0 none) (.cons rfl (.cons rfl (.cons rfl (.cons rfl (.cons rfl
      (.cons rfl (.cons (hserved 1 (some "t")) (.nil 2)))))))))

end Lager
