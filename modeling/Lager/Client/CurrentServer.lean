import Lager.Client.Runs

set_option relaxedAutoImplicit false
set_option autoImplicit false

/-!
# The cached token and the current auth server

A client without a pinned token keeps a token it took from the session of an auth server. The auth
server can change under it: a denial names another one. As long as a token for that one can be
resolved at once, the cached token is of the auth server named last, in every state of every run,
and so is the token of every request.

A denial can also change the auth server and leave the token: one that is no 401, or a 401 whose
token resolution fails. The next request then carries the token of the old one.

## Main definitions

* `Lager.namedServer` — the auth server the gateway named last.
* `Lager.KeepsServer` — the answers of a call leave no token of another auth server behind.
* `Lager.Current` — the cached token and the tokens of the requests are of the auth server named
  last.

## Main results

* `Lager.token_of_current_server` — that is so in every state of every run of calls that leave no
  token of another auth server behind.
* `Lager.token_of_former_server` — it is not so in every run.
-/

namespace Lager

open Library GatewayAuth

/-! ## The auth server named last -/

/-- The auth server the last denial among some events names, or the one known before. -/
def namedServer (known : Option String) (events : List Event) : Option String :=
  events.foldl (fun url e => (e.denial.map Prod.snd).or url) known

/-- The auth server named in some events and one more. -/
theorem namedServer_concat (known : Option String) (events : List Event) (e : Event) :
    namedServer known (events ++ [e]) =
      (e.denial.map Prod.snd).or (namedServer known events) := by
  rw [namedServer, List.foldl_append]
  rfl

/-- Only the answer to a request to the box is a denial. -/
theorem denial_of_bearer {e : Event} (h : e.bearer = none) : e.denial = none := by
  obtain ⟨op, ans⟩ := e
  cases op <;> first | rfl | cases h

/-- Where nothing goes to the box, no auth server is named. -/
theorem namedServer_quiet {events : List Event} (h : Quiet events) (known : Option String)
    (past : List Event) : namedServer known (past ++ events) = namedServer known past := by
  rw [namedServer, namedServer, List.foldl_append]
  generalize past.foldl _ known = url
  induction events generalizing url with
  | nil => rfl
  | cons e events ih =>
    obtain ⟨he, hevents⟩ := quiet_cons.mp h
    rw [List.foldl_cons, denial_of_bearer he]
    exact ih hevents url

/-- An event of a run with a continuation is one of the run or of the continuation. -/
theorem split_append {β : Type} {past events front back : List β} {e : β}
    (h : past ++ events = front ++ e :: back) :
    (∃ back', past = front ++ e :: back') ∨
      ∃ front', front = past ++ front' ∧ events = front' ++ e :: back := by
  rcases List.append_eq_append_iff.mp h with ⟨front', hfront, hevents⟩ | ⟨between, hpast, hback⟩
  · exact .inr ⟨front', hfront, hevents⟩
  · rcases between with _ | ⟨b, between⟩
    · exact .inr ⟨[], by simpa using hpast.symm, by simpa using hback.symm⟩
    · obtain ⟨rfl, -⟩ := List.cons.inj hback
      exact .inl ⟨between, hpast⟩

/-! ## Tokens of the auth server named last -/

section

variable [SerdeJson]

/-- A token belongs to an auth server: it was had from the session of that one. -/
def Belongs (accepts : ℕ → Bool) (authUrl : Option String) (token : String) (past : List Event) :
    Prop :=
  ∃ url, authUrl = some url ∧ Obtained accepts url token past

/-- A token goes on belonging to its auth server. -/
theorem Belongs.append {accepts : ℕ → Bool} {authUrl : Option String} {token : String}
    {past : List Event} (h : Belongs accepts authUrl token past) (events : List Event) :
    Belongs accepts authUrl token (past ++ events) := by
  obtain ⟨url, hurl, hobtained⟩ := h
  exact ⟨url, hurl, hobtained.mono fun e he => List.mem_append_left _ he⟩

/-- Every request so far carried no token or one of the auth server named last, and the auth
server a client knows is that one. -/
structure Follows (accepts : ℕ → Bool) (known : Option String) (past : List Event)
    (authUrl : Option String) : Prop where
  server : ∀ url, authUrl = some url → namedServer known past = some url
  requests : ∀ front e back token, past = front ++ e :: back → e.bearer = some (some token) →
    Belongs accepts (namedServer known front) token front

/-- The cached token, too, is of the auth server named last. -/
structure Current (accepts : ℕ → Bool) (known : Option String) (past : List Event)
    (s : GatewayAuth.State) : Prop where
  follows : Follows accepts known past s.authUrl
  cached : ∀ token, s.token = some token → Belongs accepts s.authUrl token past

variable {accepts : ℕ → Bool} {known authUrl : Option String} {past events : List Event}

/-- Where nothing goes to the box, nothing changes. -/
theorem Follows.quiet (h : Follows accepts known past authUrl) (hquiet : Quiet events) :
    Follows accepts known (past ++ events) authUrl where
  server url hurl := by rw [namedServer_quiet hquiet, h.server url hurl]
  requests front e back token heq hbearer := by
    rcases split_append heq with ⟨back', hpast⟩ | ⟨front', -, hevents⟩
    · exact h.requests front e back' token hpast hbearer
    · have hnone := hquiet e (by simp [hevents])
      rw [hnone] at hbearer
      cases hbearer

/-- A request with a token of the auth server named last, and an answer that names none or the one
the client knows from then on. -/
theorem Follows.request (h : Follows accepts known past authUrl) {e : Event}
    {authUrl' : Option String}
    (htoken : ∀ token, e.bearer = some (some token) → Belongs accepts authUrl token past)
    (hserver : ∀ url, authUrl' = some url →
      (e.denial.map Prod.snd).or (namedServer known past) = some url) :
    Follows accepts known (past ++ [e]) authUrl' where
  server url hurl := by rw [namedServer_concat, hserver url hurl]
  requests front e' back token heq hbearer := by
    rcases split_append heq with ⟨back', hpast⟩ | ⟨front', hfront, hevents⟩
    · exact h.requests front e' back' token hpast hbearer
    · obtain ⟨rfl, he⟩ : front' = [] ∧ e' = e := by
        rcases front' with _ | ⟨_, _ | _⟩ <;> simp_all
      rw [List.append_nil] at hfront
      subst hfront he
      obtain ⟨url, hurl, hobtained⟩ := htoken token hbearer
      exact ⟨url, h.server url hurl, hobtained⟩

/-! ## One call -/

/-- The answers of a call leave no token of another auth server behind. Its first denial names the
auth server the client knows; or, its body lost, it finds a client that knows none; or, if a token
was sent, it is a 401 and the answers let a token of the auth server it names be resolved. A second
denial names the same auth server as the first. -/
def KeepsServer (accepts : ℕ → Bool) (lost : Event → Bool) (authUrl : Option String)
    (events : List Event) : Prop :=
  ∀ front e back status url, events = front ++ e :: back → Quiet front →
    e.denial = some (status, url) →
      (authUrl = some url ∨ lost e = true ∧ authUrl = none ∨
        lost e = false ∧ ∀ token, e.bearer = some (some token) →
          status = 401 ∧ Resolvable accepts url (some token) back) ∧
      ∀ e' ∈ back, ∀ status' url', e'.denial = some (status', url') → url' = url

variable {auth : GatewayAuth} {s s' : GatewayAuth.State}

/-- Asking for the current token. -/
theorem Current.now (hpinned : auth.staticToken = none) {token : Option String}
    (h : Current accepts known past s) (now : auth.TokenNow accepts s events token s') :
    Current accepts known (past ++ events) s' where
  follows := by
    rw [now.authUrl]
    exact h.follows.quiet now.quiet
  cached t ht := by
    rw [now.cached hpinned] at ht
    rw [now.authUrl]
    rcases now.origin hpinned t ht with hold | ⟨url, hurl, hobtained⟩
    · exact (h.cached t hold).append events
    · exact ⟨url, hurl, hobtained.mono fun e he => List.mem_append_right _ he⟩

/-- The first request of a pass, which carries the token that is now cached. -/
theorem Current.request (hpinned : auth.staticToken = none) {token : Option String}
    {s₁ : GatewayAuth.State} (h : Current accepts known past s)
    (now : auth.TokenNow accepts s events token s₁) {e : Event}
    (hbearer : e.bearer = some token) {authUrl : Option String}
    (hserver : ∀ url, authUrl = some url →
      (e.denial.map Prod.snd).or (namedServer known (past ++ events)) = some url) :
    Follows accepts known (past ++ events ++ [e]) authUrl := by
  have hnow := h.now hpinned now
  refine hnow.follows.request (fun t ht => hnow.cached t ?_) hserver
  rw [now.cached hpinned]
  exact Option.some.inj (hbearer.symm.trans ht)

/-- A pass that tries again leaves the token it tries with. -/
theorem Current.again (hpinned : auth.staticToken = none) {token : Option String}
    {s₁ s₂ s₃ : GatewayAuth.State} {asked learned tried : List Event} {e e' : Event} {status : ℕ}
    {url fresh : String} (h : Current accepts known past s)
    (now : auth.TokenNow accepts s asked token s₁) (hbearer : e.bearer = some token)
    (hdenial : e.denial = some (status, url)) (learns : auth.Learns url s₁ learned s₂)
    (tries : Tries auth accepts status url token s₂ tried (some fresh) s₃)
    (hbearer' : e'.bearer = some (some fresh))
    (hsame : ∀ status' url', e'.denial = some (status', url') → url' = url) :
    Current accepts known (past ++ (asked ++ e :: (learned ++ (tried ++ [e'])))) s₃ ∧
      s₃.authUrl = some url := by
  obtain ⟨rfl, -, hobtained, rfl⟩ := tries.fresh
  obtain rfl := learns.state
  have hfirst : Follows accepts known (past ++ asked ++ [e]) (some url) :=
    h.request hpinned now hbearer fun u hu => by rw [hdenial]; exact hu
  have hfollows := (hfirst.quiet learns.quiet).quiet tries.quiet
  have hbelongs : Belongs accepts (some url) fresh (past ++ asked ++ [e] ++ learned ++ tried) :=
    ⟨url, rfl, hobtained.mono fun e he => List.mem_append_right _ he⟩
  have hsecond : Follows accepts known (past ++ asked ++ [e] ++ learned ++ tried ++ [e'])
      (some url) := by
    refine hfollows.request (fun t ht => ?_) fun u hu => ?_
    · obtain rfl : fresh = t := by simpa using hbearer'.symm.trans ht
      exact hbelongs
    · rcases hd : e'.denial with _ | ⟨status', url'⟩
      · exact hfollows.server u hu
      · rw [hsame status' url' hd]
        exact hu
  refine ⟨?_, rfl⟩
  simp only [List.append_assoc, List.cons_append, List.nil_append] at hsecond hbelongs ⊢
  refine ⟨hsecond, fun t ht => ?_⟩
  obtain rfl : fresh = t := by simpa using ht
  simpa only [List.append_assoc, List.cons_append, List.nil_append] using hbelongs.append [e']

/-- What lets a token be resolved is among the events of the resolution, not of the learning. -/
theorem Resolvable.of_learns {url : String} {avoid : Option String} {learned tried : List Event}
    (h : Resolvable accepts url avoid (learned ++ tried)) (learns : auth.Learns url s learned s')
    (hloads : ∃ store rest, tried = ⟨.loadStore, store⟩ :: rest) :
    Resolvable accepts url avoid tried := by
  obtain ⟨store, rest, rfl⟩ := hloads
  rcases h with ⟨store', now, token, hwithin, hstored⟩ | ⟨cookies, resp, hmem, hsome⟩
  · refine .inl ⟨store', now, token, ?_, hstored⟩
    rcases learns.events with rfl | ⟨-, loaded, rfl | ⟨saved, -, rfl⟩⟩
    · exact hwithin
    · rcases List.infix_cons_iff.mp hwithin with hfront | hrest
      · cases (List.cons_prefix_cons.mp (List.cons_prefix_cons.mp hfront).2).1
      · exact hrest
    · rcases List.infix_cons_iff.mp hwithin with hfront | hrest
      · cases (List.cons_prefix_cons.mp (List.cons_prefix_cons.mp hfront).2).1
      · rcases List.infix_cons_iff.mp hrest with hfront | hrest
        · cases (List.cons_prefix_cons.mp hfront).1
        · exact hrest
  · refine .inr ⟨cookies, resp, ?_, hsome⟩
    rcases List.mem_append.mp hmem with hlearned | htried
    · rcases learns.events with rfl | ⟨-, loaded, rfl | ⟨saved, -, rfl⟩⟩
      · cases hlearned
      · cases List.mem_singleton.mp hlearned
      · rcases List.mem_cons.mp hlearned with he | he
        · cases he
        · cases List.mem_singleton.mp he
    · exact htried

/-- A pass whose answers let a token be resolved is not left without one. -/
theorem Tries.not_resolvable {url : String} {token : Option String} {s₁ s₂ s₃ : GatewayAuth.State}
    {learned tried : List Event} (hpinned : auth.staticToken = none)
    (tries : Tries auth accepts 401 url token s₂ tried none s₃)
    (learns : auth.Learns url s₁ learned s₂) :
    ¬ Resolvable accepts url token (learned ++ tried) := by
  intro h
  unfold Tries at tries
  rw [if_pos ⟨rfl, hpinned⟩] at tries
  exact tries.succeeds (h.of_learns learns tries.loads) rfl

/-- A pass left without a token to try again with keeps what it has. -/
theorem Tries.kept {status : ℕ} {url : String} {token : Option String}
    {tried : List Event} (tries : Tries auth accepts status url token s tried none s') :
    s' = s := by
  unfold Tries at tries
  split_ifs at tries
  · exact tries.failed rfl
  · exact tries.2.2

omit [SerdeJson] in
/-- What a pass learns from a second denial that names the auth server it knows. -/
theorem LearnsAgain.kept {learnsAgain : Bool} {url : String}
    (h : LearnsAgain auth learnsAgain url s events s') (hurl : s.authUrl = some url) : s' = s := by
  unfold LearnsAgain at h
  split_ifs at h
  · rw [h.state, ← hurl]
  · exact h.2

omit [SerdeJson] in
/-- A denial that settles a pass is lost to its body. -/
theorem Settles.lost {α : Type} {lost : Event → Bool} {e : Event} {r : Except Error α}
    {status : ℕ} {url : String} (h : Settles lost e r) (hd : e.denial = some (status, url)) :
    lost e = true := by
  rcases r with err | a
  · rcases h.2 with hnone | hlost
    · rw [hd] at hnone
      cases hnone
    · exact hlost
  · have hnone : e.denial = none := h
    rw [hd] at hnone
    cases hnone

/-- **One pass.** A pass whose answers leave no token of another auth server behind leaves none.
It may be followed by more, if the client knew nothing before it.

**Proof sketch.** The first request carries the cached token. If its answer is no denial, or names
the auth server the client knows, nothing changes. If it names another one, either no token was
sent, and then none is cached; or the resolution succeeds and its token replaces the cached one. -/
theorem PassRun.current {α : Type} {lost : Event → Bool} {learnsAgain : Bool}
    {r : Except Error α} {later : List Event} (hpinned : auth.staticToken = none)
    (h : PassRun auth accepts lost learnsAgain s events r s') (hc : Current accepts known past s)
    (hkeeps : KeepsServer accepts lost s.authUrl (events ++ later))
    (hlater : later = [] ∨ s = ⟨none, none⟩) : Current accepts known (past ++ events) s' := by
  cases h with
  | unsent now herr => exact hc.now hpinned now
  | @settled asked token _ e _ now bearer settles =>
    have hnow := hc.now hpinned now
    have hfollows : Follows accepts known (past ++ asked ++ [e]) s'.authUrl := by
      refine hc.request hpinned now bearer fun url hurl => ?_
      rcases hd : e.denial with _ | ⟨status, url'⟩
      · exact hnow.follows.server url hurl
      · have hsame : s.authUrl = some url' := by
          rcases (hkeeps asked e later status url' (by simp) now.quiet hd).1 with
            hsame | ⟨-, hnone⟩ | ⟨hkept, -⟩
          · exact hsame
          · rw [now.authUrl, hnone] at hurl
            cases hurl
          · exact absurd hkept (by simpa using settles.lost hd)
        rw [now.authUrl, hsame] at hurl
        exact hurl
    rw [← List.append_assoc]
    exact ⟨hfollows, fun t ht => (hnow.cached t ht).append [e]⟩
  | @refused asked learned tried token s₁ s₂ s₃ e status url now bearer denial kept learns tries =>
    have hnow := hc.now hpinned now
    have hfirst : Follows accepts known (past ++ asked ++ [e]) (some url) :=
      hc.request hpinned now bearer fun u hu => by rw [denial]; exact hu
    have hfollows := (hfirst.quiet learns.quiet).quiet tries.quiet
    obtain rfl := tries.kept
    obtain rfl := learns.state
    simp only [List.append_assoc, List.cons_append, List.nil_append] at hfollows ⊢
    refine ⟨hfollows, fun t ht => ?_⟩
    have ht : s₁.token = some t := ht
    rcases (hkeeps asked e (learned ++ tried ++ later) status url (by simp) now.quiet denial).1 with
      hsame | ⟨hlost, -⟩ | ⟨-, hresolves⟩
    · have hbelongs := (hnow.cached t ht).append (e :: (learned ++ tried))
      rw [now.authUrl, hsame] at hbelongs
      simpa only [List.append_assoc] using hbelongs
    · rw [kept] at hlost
      cases hlost
    · rw [now.cached hpinned] at ht
      rcases hlater with rfl | rfl
      · obtain ⟨rfl, hres⟩ := hresolves t (by rw [bearer, ht])
        exact absurd (by simpa [ht] using hres) (tries.not_resolvable hpinned learns)
      · rw [(now.plain hpinned rfl).2.1] at ht
        cases ht
  | @settledAgain asked learned tried token s₁ s₂ s₃ e e' status url fresh _ now bearer denial kept
      learns tries bearer' settles =>
    have hsecond := (hkeeps asked e (learned ++ (tried ++ [e']) ++ later) status url (by simp)
      now.quiet denial).2 e' (by simp)
    exact (hc.again hpinned now bearer denial learns tries bearer' hsecond).1
  | @refusedAgain asked learned tried learned' token s₁ s₂ s₃ s₄ e e' status status' url url' fresh
      now bearer denial kept learns tries bearer' denial' kept' learns' =>
    have hsecond := (hkeeps asked e (learned ++ (tried ++ e' :: learned') ++ later) status url
      (by simp) now.quiet denial).2 e' (by simp)
    obtain ⟨hcurrent, hurl⟩ := hc.again hpinned now bearer denial learns tries bearer' hsecond
    obtain rfl := hsecond status' url' denial'
    obtain rfl := learns'.kept hurl
    have hfollows := hcurrent.follows.quiet learns'.quiet
    have hcached := fun t ht => (hcurrent.cached t ht).append learned'
    simp only [List.append_assoc, List.cons_append, List.nil_append] at hfollows hcached ⊢
    exact ⟨hfollows, hcached⟩

/-! ## Runs of calls -/

/-- Whether the request of a call reports that the body of an answer failed to arrive. -/
def Transport.callLost (t : Transport) : ClientCall → Event → Bool
  | .pass p => t.bodyLost p
  | .currentToken => fun _ => false
  | .bearerToken => t.bodyLost (.execute healthRequest)

/-- The answers of a call in a run leave no token of another auth server behind. -/
def Step.KeepsServer (t : Transport) (step : Step) : Prop :=
  Lager.KeepsServer t.accepts (t.callLost step.call) step.before.authUrl step.events

/-- What comes before the first request makes no difference. -/
theorem KeepsServer.of_append {lost : Event → Bool} {asked : List Event}
    (h : KeepsServer accepts lost authUrl (asked ++ events)) (hasked : Quiet asked) :
    KeepsServer accepts lost authUrl events := by
  intro front e back status url heq hfront hdenial
  refine h (asked ++ front) e back status url ?_ (quiet_append.mpr ⟨hasked, hfront⟩) hdenial
  rw [heq, List.append_assoc]

/-- A client without a token whose auth server is unknown knows nothing. -/
theorem GatewayAuth.TokenNow.nothing (hpinned : auth.staticToken = none)
    (now : auth.TokenNow accepts s events none s') (unknown : s'.authUrl = none) :
    s' = ⟨none, none⟩ := by
  have hnone := now.cached hpinned
  obtain ⟨_, _⟩ := s'
  rw [GatewayAuth.State.mk.injEq]
  exact ⟨unknown, hnone⟩

/-- One call. -/
theorem CallRun.current {t : Transport} {client : Client} {c : ClientCall}
    (hpinned : client.auth.staticToken = none) (h : CallRun t client s c events s')
    (hc : Current t.accepts known past s)
    (hkeeps : KeepsServer t.accepts (t.callLost c) s.authUrl events) :
    Current t.accepts known (past ++ events) s' := by
  cases h with
  | pass run =>
    refine run.current hpinned hc ?_ (.inl rfl)
    rw [List.append_nil]
    exact hkeeps
  | currentToken now => exact hc.now hpinned now
  | bearerKnown now => exact hc.now hpinned now
  | @bearerFailed asked events s₁ _ r now unknown run =>
    have hrest := hkeeps.of_append now.quiet
    rw [← now.authUrl, ← List.append_nil events] at hrest
    rw [← List.append_assoc]
    exact run.current hpinned (hc.now hpinned now) hrest (.inl rfl)
  | @bearerAnswered asked events asked' token s₁ s₂ _ r now unknown run again =>
    have hrest := hkeeps.of_append now.quiet
    rw [← now.authUrl] at hrest
    have hpass :=
      run.current hpinned (hc.now hpinned now) hrest (.inr (now.nothing hpinned unknown))
    simpa only [List.append_assoc] using hpass.now hpinned again

/-- A run of calls, after what happened before it. -/
theorem Transport.Runs.current {t : Transport} {client : Client}
    (hpinned : client.auth.staticToken = none) {history : List Step}
    (h : t.Runs client s history s') (hc : Current t.accepts known past s)
    (hkeeps : ∀ step ∈ history, step.KeepsServer t) :
    Current t.accepts known (past ++ trace history) s' := by
  induction h generalizing past with
  | nil s => simpa [trace] using hc
  | @cons s s₁ s' c events history call rest ih =>
    have hcall := always_iff_run.mp (t.call_spec client c s) events ((), s₁) call
    have hstep := hcall.current hpinned hc (hkeeps _ List.mem_cons_self)
    rw [trace_cons, ← List.append_assoc]
    exact ih hstep fun step hmem => hkeeps step (List.mem_cons_of_mem _ hmem)

/-- **The cached token belongs to the current auth server.** Take any run of calls of either client
without a pinned token, from the state it is built in, with any answers of the box, the store, the
clock and the auth servers, that leave in no call a token of another auth server behind. Then the
token cached in the end was had from the session of the current auth server, and every request
carried no token, or one had from the session of the auth server that was current then, the one the
gateway had named last.

**Proof sketch.** By induction on the run, with what happened before it as a parameter. A call is a
pass or asks for the current token, and each keeps the invariant. -/
theorem token_of_current_server (t : Transport) (client : Client)
    (hpinned : client.auth.staticToken = none) (known : Option String) {history : List Step}
    (h : t.Runs client ⟨known, none⟩ history s)
    (hkeeps : ∀ step ∈ history, step.KeepsServer t) :
    Current t.accepts known (trace history) s := by
  have hstart : Current t.accepts known [] ⟨known, none⟩ := by
    refine ⟨⟨fun url hurl => hurl, fun front e back token heq => ?_⟩, fun token ht => ?_⟩
    · simp at heq
    · cases ht
  simpa using h.current hpinned hstart hkeeps

end

/-! ## Runs on fixed answers -/

/-- The answer of an auth server to a refresh: `{"accessToken":"t"}`. -/
def refreshed : List UInt8 :=
  [123, 34, 97, 99, 99, 101, 115, 115, 84, 111, 107, 101, 110, 34, 58, 34, 116, 34, 125]

/-- A parser that knows that answer. -/
abbrev refreshParser : SerdeJson :=
  SerdeJson.only refreshed (.object [("accessToken", .string "t")])

/-- A store with a session of `http://a` that has to be refreshed. -/
def signedIn : Value :=
  .object [("authServers",
    .object [("http://a", .object [("cookies", .object [("c", .string "1")])])])]

/-- The request of a client for the health of its box. -/
def askHealth (token : Option String) : Op :=
  .request ⟨.get, "http://box:9000/health", token, none, some 30⟩

/-- The denial of a gateway whose auth server has a name of one letter. -/
def gatewayDenies (status : ℕ) (letter : UInt8) : Response :=
  ⟨status, false, [("x-gateway-auth-url", [104, 116, 116, 112, 58, 47, 47, letter])], .ok []⟩

/-- The store with the refreshed session. -/
def signedInAgain : Value := applyRefresh "http://a" ⟨"t", []⟩ signedIn

/-- A client refreshes its session at `http://a` and sends the token to a box whose gateway answers
with a 403 that names `http://b`. -/
def moved : List Event :=
  [⟨.loadStore, signedIn⟩, ⟨.refresh "http://a" "c=1", .ok ⟨200, false, [], .ok refreshed⟩⟩,
    ⟨.loadStore, signedIn⟩, ⟨.saveStore signedInAgain, ()⟩,
    ⟨askHealth (some "t"), .ok (gatewayDenies 403 98)⟩, ⟨.loadStore, signedInAgain⟩,
    ⟨.saveStore ((learnBox "box" "http://b" signedInAgain).getD .null), ()⟩]

/-- A client that knows nothing is denied with a 401 that names `http://a`, refreshes its session
there and sends its request again. -/
def gated : List Event :=
  [⟨askHealth none, .ok (gatewayDenies 401 97)⟩, ⟨.loadStore, signedIn⟩,
    ⟨.saveStore ((learnBox "box" "http://a" signedIn).getD .null), ()⟩, ⟨.loadStore, signedIn⟩,
    ⟨.refresh "http://a" "c=1", .ok ⟨200, false, [], .ok refreshed⟩⟩, ⟨.loadStore, signedIn⟩,
    ⟨.saveStore signedInAgain, ()⟩, ⟨askHealth (some "t"), .ok ⟨200, false, [], .ok [111, 107]⟩⟩]

/-- In that run, no session of `http://b` is read from the store and none is refreshed. -/
theorem moved_reads : ∀ e ∈ moved,
    (∀ store, e = ⟨.loadStore, store⟩ → storeEntry "http://b" store = (none, [])) ∧
      ∀ cookies answer, e ≠ ⟨.refresh "http://b" cookies, answer⟩ := by
  simp only [moved, List.forall_mem_cons]
  refine ⟨⟨?_, nofun⟩, ⟨nofun, ?_⟩, ⟨?_, nofun⟩, ⟨nofun, nofun⟩, ⟨nofun, nofun⟩, ⟨?_, nofun⟩,
    ⟨nofun, nofun⟩, List.forall_mem_nil _⟩
  · rintro store ⟨⟩
    rfl
  · rintro cookies answer h
    have hop : Op.refresh "http://a" "c=1" = Op.refresh "http://b" cookies :=
      congrArg Sigma.fst h
    simp at hop
  · rintro store ⟨⟩
    rfl
  · rintro store ⟨⟩
    rfl

/-- A client keeps the token of the auth server it knew when a denial with 403 names another: the
token it has cached is not of the auth server it knows. -/
theorem token_of_former_server :
    letI := refreshParser
    ¬ ∀ history s, Transport.blocking.Runs unpinned ⟨some "http://a", none⟩ history s →
      ∀ token, s.token = some token →
        Belongs Transport.blocking.accepts s.authUrl token (trace history) := by
  let _ := refreshParser
  intro hall
  have hrun : Transport.blocking.Runs unpinned ⟨some "http://a", none⟩
      [⟨⟨some "http://a", none⟩, .pass (.execute healthRequest), moved⟩]
      ⟨some "http://b", some "t"⟩ :=
    .cons (.op _ (.op _ (.op _ (.op _ (.op _ (.op _ (.op _ (.pure _)))))))) (.nil _)
  have htrace :
      trace [⟨⟨some "http://a", none⟩, .pass (.execute healthRequest), moved⟩] = moved := by
    simp [trace]
  obtain ⟨url, hurl, store, hload, htoken⟩ := hall _ _ hrun "t" rfl
  obtain rfl : "http://b" = url := by simpa using hurl
  rw [htrace] at hload htoken
  have hentry := (moved_reads _ hload).1 store rfl
  rcases htoken with hstored | ⟨resp, setCookies, hrefresh, -⟩
  · rw [hentry] at hstored
    cases hstored
  · exact (moved_reads _ hrefresh).2 _ _ rfl

/-- A client that learns the auth server of its box and signs in there on the way ends with a token
of that one. -/
theorem token_of_current_server_signIn :
    letI := refreshParser
    Current Transport.blocking.accepts none
      (trace [⟨⟨none, none⟩, .pass (.execute healthRequest), gated⟩])
      ⟨some "http://a", some "t"⟩ := by
  let _ := refreshParser
  refine token_of_current_server .blocking unpinned rfl none
    (.cons (.op _ (.op _ (.op _ (.op _ (.op _ (.op _ (.op _ (.op _ (.pure _))))))))) (.nil _))
    fun step hmem => ?_
  obtain rfl := List.mem_singleton.mp hmem
  rintro (_ | ⟨e₁, front⟩) e back status url heq hquiet hdenial
  · obtain ⟨rfl, rfl⟩ := List.cons.inj heq
    refine ⟨.inr (.inr ⟨rfl, fun token htoken => ?_⟩), fun e' hmem status' url' hdenial' => ?_⟩
    · cases htoken
    · have hnone : ∀ e ∈ gated.tail, e.denial = none := by
        simp only [gated, List.tail_cons, List.forall_mem_cons]
        exact ⟨rfl, rfl, rfl, rfl, rfl, rfl, rfl, List.forall_mem_nil _⟩
      have hanswer := hnone e' hmem
      rw [hdenial'] at hanswer
      cases hanswer
  · obtain ⟨rfl, -⟩ := List.cons.inj heq
    cases hquiet _ List.mem_cons_self

end Lager
