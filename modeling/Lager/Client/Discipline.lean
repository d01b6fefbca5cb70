import Lager.Client.Attempts

set_option relaxedAutoImplicit false
set_option autoImplicit false

/-!
# The discipline of a pass

A pass of either client sends a request with the current token. If the gateway denies it, the
client learns the auth server it names; after a 401, and without a pinned token, it resolves a token
there and sends the request once more.

## Main definitions

* `Lager.PassRun` — the runs of a pass, event by event.
* `Lager.sent` — the requests to the box among the events of a run.

## Main results

* `Lager.pass_spec`, `Lager.Transport.pass_spec` — the runs of a pass are these.
* `Lager.retry_discipline` — at most two requests, the second only after a 401 and with a token
  of the auth server it named, and a denial at the end exactly when the last answer is one.
-/

namespace Lager

open Library GatewayAuth

variable {α : Type}

/-! ## The runs of a pass -/

/-- The answer of a request settles a pass: it is no denial, or its body was lost. -/
def Settles (lost : Event → Bool) (e : Event) : Except Error α → Prop
  | .ok _ => e.denial = none
  | .error err => err.isDenial = false ∧ (e.denial = none ∨ lost e = true)

section

variable [SerdeJson] (auth : GatewayAuth) (accepts : ℕ → Bool)

/-- The token a pass tries again with after a denial: after a 401 one resolved for the auth server
the gateway named, unless a token is pinned; otherwise none. -/
def Tries (status : ℕ) (authUrl : String) (token : Option String) (s : GatewayAuth.State)
    (events : List Event) (fresh : Option String) (s' : GatewayAuth.State) : Prop :=
  if status = 401 ∧ auth.staticToken = none then
    auth.Resolved accepts authUrl token s events fresh s'
  else fresh = none ∧ events = [] ∧ s' = s

/-- What a pass learns from a second denial. -/
def LearnsAgain (learnsAgain : Bool) (authUrl : String) (s : GatewayAuth.State)
    (events : List Event) (s' : GatewayAuth.State) : Prop :=
  if learnsAgain then auth.Learns authUrl s events s' else events = [] ∧ s' = s

/-- The runs of a pass from a state. -/
inductive PassRun (lost : Event → Bool) (learnsAgain : Bool) (s : GatewayAuth.State) :
    List Event → Except Error α → GatewayAuth.State → Prop
  /-- Nothing is sent. -/
  | unsent {asked : List Event} {token : Option String} {s₁ : GatewayAuth.State} {err : Error}
      (now : auth.TokenNow accepts s asked token s₁) (herr : err.isDenial = false) :
      PassRun lost learnsAgain s asked (.error err) s₁
  /-- The first answer settles the pass. -/
  | settled {asked : List Event} {token : Option String} {s₁ : GatewayAuth.State} {e : Event}
      {r : Except Error α} (now : auth.TokenNow accepts s asked token s₁)
      (bearer : e.bearer = some token) (settles : Settles lost e r) :
      PassRun lost learnsAgain s (asked ++ [e]) r s₁
  /-- The first answer is a denial, and there is no token to try again with. -/
  | refused {asked learned tried : List Event} {token : Option String}
      {s₁ s₂ s₃ : GatewayAuth.State} {e : Event} {status : ℕ} {authUrl : String}
      (now : auth.TokenNow accepts s asked token s₁)
      (bearer : e.bearer = some token) (denial : e.denial = some (status, authUrl))
      (kept : lost e = false) (learns : auth.Learns authUrl s₁ learned s₂)
      (tries : Tries auth accepts status authUrl token s₂ tried none s₃) :
      PassRun lost learnsAgain s (asked ++ e :: (learned ++ tried))
        (.error (denialError status auth.boxHost authUrl token.isSome)) s₃
  /-- The second answer settles the pass. -/
  | settledAgain {asked learned tried : List Event} {token : Option String}
      {s₁ s₂ s₃ : GatewayAuth.State} {e e' : Event} {status : ℕ} {authUrl fresh : String}
      {r : Except Error α}
      (now : auth.TokenNow accepts s asked token s₁)
      (bearer : e.bearer = some token) (denial : e.denial = some (status, authUrl))
      (kept : lost e = false) (learns : auth.Learns authUrl s₁ learned s₂)
      (tries : Tries auth accepts status authUrl token s₂ tried (some fresh) s₃)
      (bearer' : e'.bearer = some (some fresh)) (settles : Settles lost e' r) :
      PassRun lost learnsAgain s (asked ++ e :: (learned ++ (tried ++ [e']))) r s₃
  /-- The second answer is a denial too. -/
  | refusedAgain {asked learned tried learned' : List Event} {token : Option String}
      {s₁ s₂ s₃ s₄ : GatewayAuth.State} {e e' : Event} {status status' : ℕ}
      {authUrl authUrl' fresh : String}
      (now : auth.TokenNow accepts s asked token s₁)
      (bearer : e.bearer = some token) (denial : e.denial = some (status, authUrl))
      (kept : lost e = false) (learns : auth.Learns authUrl s₁ learned s₂)
      (tries : Tries auth accepts status authUrl token s₂ tried (some fresh) s₃)
      (bearer' : e'.bearer = some (some fresh)) (denial' : e'.denial = some (status', authUrl'))
      (kept' : lost e' = false)
      (learns' : LearnsAgain auth learnsAgain authUrl' s₃ learned' s₄) :
      PassRun lost learnsAgain s (asked ++ e :: (learned ++ (tried ++ e' :: learned')))
        (.error (denialError status' auth.boxHost authUrl' true)) s₄

/-- The token to try again with. -/
theorem tries_spec (status : ℕ) (authUrl : String) (token : Option String) (s : GatewayAuth.State) :
    Always ((retryToken auth (auth.resolveToken (refreshWith accepts)) status authUrl token).run s)
      fun events r => Tries auth accepts status authUrl token s events r.1 r.2 := by
  have hpinned : auth.hasStaticToken = true ↔ auth.staticToken ≠ none := by
    rw [hasStaticToken, Option.isSome_iff_ne_none]
  unfold Tries retryToken
  by_cases h : status = 401 ∧ auth.staticToken = none
  · rw [if_pos ⟨h.1, by simp [hpinned, h.2]⟩]
    simp only [if_pos h]
    exact auth.resolveToken_spec accepts authUrl token s
  · rw [if_neg (by simpa [hpinned] using h)]
    simp only [if_neg h, StateT.run_pure, always_pure, and_self]

/-- **The runs of a pass.** Over attempts that send at most one request and come to what its
answer says, every run of a pass is one of `PassRun`. -/
theorem pass_spec {lost : Event → Bool}
    {attempt : Option String → Program Op Op.Ans (Attempt α)}
    (hattempt : Attempt.Refrains attempt ∨ Attempt.Sends lost attempt) (learnsAgain : Bool)
    (s : GatewayAuth.State) :
    Always ((pass auth (auth.resolveToken (refreshWith accepts)) learnsAgain attempt).run s)
      fun events r => PassRun auth accepts lost learnsAgain s events r.1 r.2 := by
  simp only [pass, StateT.run_bind, StateT.run_monadLift, monadLift_self, always_bind, always_pure]
  refine (auth.currentToken_spec accepts s).mono fun asked now hnow => ?_
  obtain ⟨token, s₁⟩ := now
  rcases hattempt with ⟨err, herr, hnone⟩ | hsends
  · simp only [hnone, always_pure, StateT.run_pure, List.append_nil]
    exact .unsent hnow herr
  refine (hsends token).mono ?_
  rintro events a ⟨e, rfl, hbearer, hreads⟩
  rcases a with a | ⟨status, authUrl⟩ | err
  · exact .settled hnow hbearer hreads
  · obtain ⟨hdenial, hkept⟩ := hreads
    simp only [StateT.run_bind, always_bind]
    refine (auth.learnAuthServer_spec authUrl s₁).mono fun learned r hlearns => ?_
    refine (tries_spec auth accepts status authUrl token r.2).mono fun tried r' htries => ?_
    obtain ⟨_ | fresh, s₃⟩ := r'
    · simpa using PassRun.refused hnow hbearer hdenial hkept hlearns htries
    · simp only [StateT.run_bind, StateT.run_monadLift, monadLift_self, always_bind, always_pure]
      refine (hsends (some fresh)).mono ?_
      rintro events a ⟨e', rfl, hbearer', hreads'⟩
      rcases a with a | ⟨status', authUrl'⟩ | err
      · have hsettles : Settles lost e' (.ok a) := hreads'
        simpa using PassRun.settledAgain hnow hbearer hdenial hkept hlearns htries hbearer' hsettles
      · obtain ⟨hdenial', hkept'⟩ := hreads'
        cases learnsAgain
        · have hagain : LearnsAgain auth false authUrl' s₃ [] s₃ := ⟨rfl, rfl⟩
          simpa using PassRun.refusedAgain hnow hbearer hdenial hkept hlearns htries hbearer'
            hdenial' hkept' hagain
        · simp only [if_true, StateT.run_bind, always_bind]
          refine (auth.learnAuthServer_spec authUrl' s₃).mono fun learned' r hlearns' => ?_
          have hagain : LearnsAgain auth true authUrl' s₃ learned' r.2 := hlearns'
          simpa using PassRun.refusedAgain hnow hbearer hdenial hkept hlearns htries hbearer'
            hdenial' hkept' hagain
      · have hsettles : Settles lost e' (.error err : Except Error α) := hreads'
        simpa using PassRun.settledAgain hnow hbearer hdenial hkept hlearns htries hbearer' hsettles
  · exact .settled hnow hbearer hreads

end

/-- The runs of the passes of either client. -/
theorem Transport.pass_spec [SerdeJson] (t : Transport) (client : Client) (p : Pass)
    (s : GatewayAuth.State) :
    Always ((t.pass client p).run s) fun events r =>
      PassRun client.auth t.accepts (t.bodyLost p) p.learnsAgain s events r.1 r.2 := by
  rw [t.pass_eq client p]
  exact Lager.pass_spec client.auth t.accepts (t.attempt_spec client p).kind p.learnsAgain s

/-! ## The requests of a run -/

/-- The requests to the box. -/
def sent (events : List Event) : List Event := events.filter fun e => e.bearer.isSome

/-- Where nothing happens, there are none. -/
@[simp] theorem sent_nil : sent [] = [] := rfl

/-- The requests of a run and of what follows it. -/
@[simp] theorem sent_append (events events' : List Event) :
    sent (events ++ events') = sent events ++ sent events' :=
  List.filter_append _ _

/-- A request is one. -/
theorem sent_cons {e : Event} {token : Option String} (h : e.bearer = some token)
    (events : List Event) : sent (e :: events) = e :: sent events :=
  List.filter_cons_of_pos (by rw [h]; rfl)

/-- Where nothing goes to the box, there are none. -/
theorem sent_of_quiet {events : List Event} (h : Quiet events) : sent events = [] := by
  refine List.filter_eq_nil_iff.mpr fun e he => ?_
  rw [h e he]
  decide

/-- Nothing goes to the box to learn an auth server. -/
theorem GatewayAuth.Learns.quiet {auth : GatewayAuth} {authUrl : String} {s s' : GatewayAuth.State}
    {events : List Event} (h : auth.Learns authUrl s events s') : Quiet events := by
  rcases h.events with rfl | ⟨-, store, rfl | ⟨store', -, rfl⟩⟩ <;> simp [Event.bearer]

section

variable [SerdeJson] {auth : GatewayAuth} {accepts : ℕ → Bool} {status : ℕ} {authUrl : String}
  {token : Option String} {s s' : GatewayAuth.State} {events : List Event}

/-- Nothing goes to the box to get a token to try again with. -/
theorem Tries.quiet {fresh : Option String}
    (h : Tries auth accepts status authUrl token s events fresh s') : Quiet events := by
  unfold Tries at h
  split_ifs at h
  · exact h.quiet
  · rw [h.2.1]
    exact quiet_nil

/-- There is a token to try again with only after a 401 and without a pinned token, and it is from
the session of the auth server the gateway named. -/
theorem Tries.fresh {fresh : String}
    (h : Tries auth accepts status authUrl token s events (some fresh) s') :
    status = 401 ∧ auth.staticToken = none ∧ Obtained accepts authUrl fresh events ∧
      s' = ⟨s.authUrl, some fresh⟩ := by
  unfold Tries at h
  split_ifs at h with h401
  · refine ⟨h401.1, h401.2, h.obtained fresh rfl, ?_⟩
    obtain ⟨authUrl', token'⟩ := s'
    have hurl : authUrl' = s.authUrl := h.authUrl
    have htoken : token' = some fresh := h.cached fresh rfl h401.2
    rw [hurl, htoken]
  · cases h.1

end

/-- Nothing goes to the box to learn from a second denial. -/
theorem LearnsAgain.quiet {auth : GatewayAuth} {learnsAgain : Bool} {authUrl : String}
    {s s' : GatewayAuth.State} {events : List Event}
    (h : LearnsAgain auth learnsAgain authUrl s events s') :
    Quiet events := by
  unfold LearnsAgain at h
  split_ifs at h
  · exact h.quiet
  · rw [h.1]
    exact quiet_nil

/-! ## The discipline -/

/-- A second request is sent after a denial with a 401, by a client without a pinned token, with a
token had in between from the session of the auth server the denial names. -/
def SentAgain [SerdeJson] (auth : GatewayAuth) (accepts : ℕ → Bool) (events : List Event)
    (e e' : Event) : Prop :=
  ∃ authUrl fresh front between back, events = front ++ e :: (between ++ e' :: back) ∧
    e.denial = some (401, authUrl) ∧ auth.staticToken = none ∧
    e'.bearer = some (some fresh) ∧ Obtained accepts authUrl fresh between

/-- What the requests of a pass and its end have to do with each other. -/
structure Disciplined [SerdeJson] (auth : GatewayAuth) (accepts : ℕ → Bool)
    (lost : Event → Bool) (events : List Event) (r : Except Error α) : Prop where
  atMostTwo : (sent events).length ≤ 2
  second : ∀ e e', sent events = [e, e'] → SentAgain auth accepts events e e'
  denial : (∃ err, r = .error err ∧ err.isDenial = true) ↔
    ∃ e, (sent events).getLast? = some e ∧ e.denial ≠ none ∧ lost e = false

/-- A pass that its last answer settles does not end in a denial. -/
theorem Settles.denial_iff {lost : Event → Bool} {e : Event} {r : Except Error α}
    (h : Settles lost e r) :
    (∃ err, r = .error err ∧ err.isDenial = true) ↔ e.denial ≠ none ∧ lost e = false := by
  rcases r with err | a
  · obtain ⟨hnot, hanswer⟩ := h
    refine ⟨?_, fun ⟨hdenial, hkept⟩ => ?_⟩
    · rintro ⟨err', heq, herr⟩
      cases heq
      rw [hnot] at herr
      cases herr
    · rcases hanswer with hnone | hlost
      · exact absurd hnone hdenial
      · rw [hkept] at hlost
        cases hlost
  · refine ⟨?_, fun hdenial => absurd h hdenial.1⟩
    rintro ⟨err, heq, -⟩
    cases heq

/-- A pass that its last answer refuses ends in a denial. -/
theorem refusal_denial_iff {lost : Event → Bool} {e : Event} {status status' : ℕ}
    {boxHost authUrl authUrl' : String} {sentToken : Bool}
    (hdenial : e.denial = some (status', authUrl')) (hkept : lost e = false) :
    (∃ err, (.error (denialError status boxHost authUrl sentToken) : Except Error α) = .error err ∧
      err.isDenial = true) ↔ e.denial ≠ none ∧ lost e = false := by
  refine ⟨fun _ => ⟨by simp [hdenial], hkept⟩, fun _ => ?_⟩
  exact ⟨_, rfl, isDenial_denialError status boxHost authUrl sentToken⟩

section

variable [SerdeJson] {auth : GatewayAuth} {accepts : ℕ → Bool} {lost : Event → Bool}
  {events : List Event} {r : Except Error α} {e e' : Event}

/-- A pass with one request. -/
theorem Disciplined.of_one (hsent : sent events = [e])
    (hend : (∃ err, r = .error err ∧ err.isDenial = true) ↔ e.denial ≠ none ∧ lost e = false) :
    Disciplined auth accepts lost events r where
  atMostTwo := by simp [hsent]
  second e₁ e₂ h := by simp [hsent] at h
  denial := by simpa [hsent] using hend

/-- A pass with two requests. -/
theorem Disciplined.of_two (hsent : sent events = [e, e'])
    (hsecond : SentAgain auth accepts events e e')
    (hend : (∃ err, r = .error err ∧ err.isDenial = true) ↔ e'.denial ≠ none ∧ lost e' = false) :
    Disciplined auth accepts lost events r where
  atMostTwo := by simp [hsent]
  second e₁ e₂ h := by
    rw [hsent] at h
    cases h
    exact hsecond
  denial := by simpa [hsent] using hend

/-- A pass that tries again sends a second request as it should. -/
theorem Tries.sentAgain {status : ℕ} {authUrl fresh : String} {token : Option String}
    {s₂ s₃ : GatewayAuth.State} {asked learned tried back : List Event}
    (htries : Tries auth accepts status authUrl token s₂ tried (some fresh) s₃)
    (hdenial : e.denial = some (status, authUrl)) (hbearer : e'.bearer = some (some fresh)) :
    SentAgain auth accepts (asked ++ e :: (learned ++ (tried ++ e' :: back))) e e' := by
  obtain ⟨rfl, hnone, hobtained, -⟩ := htries.fresh
  refine ⟨authUrl, fresh, asked, learned ++ tried, back, ?_, hdenial, hnone, hbearer, ?_⟩
  · rw [List.append_assoc]
  · exact hobtained.mono fun e he => List.mem_append_right _ he

/-- A run of a pass is disciplined. -/
theorem PassRun.disciplined {learnsAgain : Bool} {s s' : GatewayAuth.State}
    (h : PassRun auth accepts lost learnsAgain s events r s') :
    Disciplined auth accepts lost events r := by
  cases h with
  | unsent now herr =>
    have hsent := sent_of_quiet now.quiet
    refine ⟨by simp [hsent], fun e e' h => by simp [hsent] at h, ?_⟩
    simp [hsent, herr]
  | settled now bearer settles =>
    refine .of_one ?_ settles.denial_iff
    rw [sent_append, sent_of_quiet now.quiet, sent_cons bearer]
    rfl
  | refused now bearer denial kept learns tries =>
    refine .of_one ?_ (refusal_denial_iff denial kept)
    rw [sent_append, sent_of_quiet now.quiet, sent_cons bearer, sent_append,
      sent_of_quiet learns.quiet, sent_of_quiet tries.quiet]
    rfl
  | settledAgain now bearer denial kept learns tries bearer' settles =>
    refine .of_two ?_ (tries.sentAgain denial bearer') settles.denial_iff
    rw [sent_append, sent_of_quiet now.quiet, sent_cons bearer, sent_append, sent_append,
      sent_of_quiet learns.quiet, sent_of_quiet tries.quiet, sent_cons bearer']
    rfl
  | refusedAgain now bearer denial kept learns tries bearer' denial' kept' learns' =>
    refine .of_two ?_ (tries.sentAgain denial bearer') (refusal_denial_iff denial' kept')
    rw [sent_append, sent_of_quiet now.quiet, sent_cons bearer, sent_append, sent_append,
      sent_of_quiet learns.quiet, sent_of_quiet tries.quiet, sent_cons bearer',
      sent_of_quiet learns'.quiet]
    rfl

end

/-- **Retry discipline.** For every pass of either client, whatever the box, the store and the auth
server answer: at most two requests reach the box; a second one only after the first was denied with
a 401, when no token is pinned, and with a token had from the session of the auth server that denial
named; and the pass ends in the error of a denial exactly when the answer to its last request is a
denial whose body was not lost. -/
theorem retry_discipline [SerdeJson] (t : Transport) (client : Client) (p : Pass)
    (s : GatewayAuth.State) :
    Always ((t.pass client p).run s) fun events r =>
      Disciplined client.auth t.accepts (t.bodyLost p) events r.1 := by
  exact (t.pass_spec client p s).mono fun events r h => h.disciplined

/-- A client of a box, without a pinned token. -/
def unpinned : Client := ⟨"http://box:9000", "http://box:8765", 30, ⟨"box", none⟩⟩

/-- A parser that knows `null`. -/
abbrev nullParser : SerdeJson := SerdeJson.only [110, 117, 108, 108] .null

/-- A denial whose body is lost is not reported as one: the blocking client asks for the health of a
box that answers 401 with the discovery header and then stalls, and gets a timeout. -/
theorem denial_lost_to_body :
    letI := nullParser
    ¬ Always ((Transport.blocking.pass unpinned (.execute ⟨.get, "/health", none, .default⟩)).run
        ⟨none, none⟩) fun events r =>
      Disciplined unpinned.auth Transport.blocking.accepts (fun _ => false) events r.1 := by
  let _ := nullParser
  intro hall
  let stalled : Event :=
    ⟨.request ⟨.get, "http://box:9000/health", none, none, some 30⟩, .ok ⟨401, false,
      [("x-gateway-auth-url", [104, 116, 116, 112, 58, 47, 47, 97])], .error ⟨true, "timed out"⟩⟩⟩
  have hrun := always_iff_run.mp hall [stalled] (.error (.timeout (.readingTimedOut "timed out")),
    ⟨none, none⟩) (.op _ (.pure _))
  have hdenial : stalled.denial = some (401, "http://a") := by decide
  have hlast : (sent [stalled]).getLast? = some stalled := rfl
  obtain ⟨err, heq, herr⟩ := hrun.denial.mpr ⟨stalled, hlast, by rw [hdenial]; decide, rfl⟩
  cases heq
  cases herr

end Lager
