import Lager.Nets.ScopeFrame
import Lager.Nets.ScopeStream
import Lager.Rust.Serde

set_option relaxedAutoImplicit false
set_option autoImplicit false

/-!
# One capture

`Socket::capture` asks for the latest capture. The daemon acknowledges the command with the sequence
number of a capture, and sends the frame. Captures may be on their way to the socket already, before
the acknowledgement and after it; these are skipped.

## Main definitions

* `Lager.peekSeq` — the sequence number in a frame.
* `Lager.Socket.capture` — the call.
* `Lager.Acknowledged` — a capture is the one that was acknowledged.

## Main results

* `Lager.capture_acknowledged` — what is returned is the capture that was acknowledged, and an error
  of the daemon is returned with its message.

## Implementation notes

The loops are given a number of rounds, as those of a stream are. `Value::as_u64` reads the numbers
that `SerdeInt` reads.
-/

namespace Lager

open Library

/-! ## The call -/

/-- `peek_seq`. -/
def peekSeq (buf : List UInt8) : Option UInt64 :=
  if headerSize ≤ buf.length ∧ u32At buf 0 = magic then some (u64At buf 8) else none

/-- The command that asks for a capture. -/
def getTriggeredData : Value := .object [("command", .string "GetTriggeredData")]

namespace Socket

/-- The loop of `capture`. -/
def captureLoop [SerdeJson] (seq : Option ℕ) (deadline rounds : ℕ) :
    ℕ → ScopeAction (Option (Except Error ScopeCapture))
  | 0 => return none
  | messages + 1 => do
    match ← read deadline "capture" rounds with
    | none => return none
    | some (.error err) => return some (.error err)
    | some (.ok (.binary frame)) =>
      if seq = none ∨ (peekSeq frame).map UInt64.toNat = seq then
        return some (ScopeCapture.decode frame)
      else captureLoop seq deadline rounds messages
    | some (.ok (.text text)) =>
      match daemonReply text "GetTriggeredData" with
      | .error err => return some (.error err)
      | .ok _ => captureLoop seq deadline rounds messages
    | some (.ok _) => captureLoop seq deadline rounds messages

/-- `Socket::capture`. -/
def capture [SerdeJson] [SerdeInt] (deadline rounds : ℕ) :
    ScopeAction (Option (Except Error ScopeCapture)) := do
  match ← send getTriggeredData with
  | .error err => return some (.error err)
  | .ok _ =>
    match ← reply "GetTriggeredData" deadline rounds rounds with
    | none => return none
    | some (.error err) => return some (.error err)
    | some (.ok ack) =>
      let seq := (ack.get "seq").bind SerdeInt.u64
      captureLoop seq deadline rounds rounds

end Socket

/-! ## What the daemon sends -/

/-- The response in a text: the message, or what is under its key `Response`. -/
def responseIn [SerdeJson] (text : String) : Option Value :=
  match SerdeJson.fromSlice (utf8 text) with
  | .error _ => none
  | .ok message => some ((message.get "Response").getD message)

/-- The name of a response. -/
def responseName (response : Value) : Option String := (response.get "response").bind Value.asStr

/-- A text is a notice of the state. -/
def IsState [SerdeJson] (text : String) : Prop :=
  ∃ response, responseIn text = some response ∧ responseName response = some "State"

/-- A text is an error with a message. -/
def IsDaemonError [SerdeJson] (text detail : String) : Prop :=
  ∃ response, responseIn text = some response ∧ responseName response = some "Error" ∧
    ((response.get "message").bind Value.asStr).getD "unknown daemon error" = detail

/-- Some messages end with the acknowledgement, which is the first text that is no notice of the
state. -/
def Acknowledges [SerdeJson] (messages : List WsMessage) (ack : Value) : Prop :=
  ∃ before text, messages = before ++ [.text text] ∧
    (∀ notice, .text notice ∈ before → IsState notice) ∧ ¬ IsState text ∧
    responseIn text = some ack

/-- A capture is the one that was acknowledged: the last message is its frame, the acknowledgement
came before, and where that has a sequence number, it is the number of the capture. -/
def Acknowledged [SerdeJson] [SerdeInt] (messages : List WsMessage) (c : ScopeCapture) : Prop :=
  ∃ acknowledging between frame ack, messages = acknowledging ++ between ++ [.binary frame] ∧
    Acknowledges acknowledging ack ∧ ScopeCapture.decode frame = .ok c ∧
    ∀ seq, (ack.get "seq").bind SerdeInt.u64 = some seq → c.seq.toNat = seq

/-- An error of the daemon is returned with its message. -/
def ErrorsSurface [SerdeJson] {α : Type} (messages : List WsMessage)
    (r : Option (Except Error α)) : Prop :=
  ∀ text detail, .text text ∈ messages → IsDaemonError text detail →
    r = some (.error (.stream (.scopeDaemon detail)))

/-! ## Replies -/

section

variable [SerdeJson] {text command detail : String} {reply : Value}

/-- A reply is a response that is no error. -/
theorem daemonReply_eq_ok : daemonReply text command = .ok reply ↔
    responseIn text = some reply ∧ responseName reply ≠ some "Error" := by
  rw [daemonReply, responseIn]
  cases SerdeJson.fromSlice (utf8 text) with
  | error e => simp
  | ok message =>
    dsimp only
    generalize (message.get "Response").getD message = response
    unfold responseName
    split
    next h => simpa using fun heq : response = reply => heq ▸ h
    next h =>
      refine ⟨?_, ?_⟩
      · rintro ⟨⟩
        exact ⟨rfl, h⟩
      · rintro ⟨⟨⟩, -⟩
        rfl

/-- A reply to a command is no error of the daemon. -/
theorem not_isDaemonError (h : daemonReply text command = .ok reply) :
    ¬ IsDaemonError text detail := by
  obtain ⟨hresponse, hname⟩ := daemonReply_eq_ok.mp h
  rintro ⟨response, hresponse', hname', -⟩
  obtain rfl := Option.some.inj (hresponse.symm.trans hresponse')
  exact hname hname'

/-- An error of the daemon is reported with its message. -/
theorem daemonReply_of_isDaemonError (h : IsDaemonError text detail) :
    daemonReply text command = .error (.stream (.scopeDaemon detail)) := by
  obtain ⟨response, hresponse, hname, rfl⟩ := h
  rw [responseIn] at hresponse
  rw [daemonReply]
  cases hparse : SerdeJson.fromSlice (utf8 text) with
  | error e => simp [hparse] at hresponse
  | ok message =>
    rw [hparse] at hresponse
    obtain rfl := Option.some.inj hresponse
    exact if_pos hname

/-- A reply is a notice of the state where its name says so. -/
theorem isState_iff (h : daemonReply text command = .ok reply) :
    IsState text ↔ responseName reply = some "State" := by
  obtain ⟨hresponse, -⟩ := daemonReply_eq_ok.mp h
  refine ⟨?_, fun hname => ⟨reply, hresponse, hname⟩⟩
  rintro ⟨response, hresponse', hname⟩
  obtain rfl := Option.some.inj (hresponse.symm.trans hresponse')
  exact hname

end

/-! ## Errors of the daemon -/

section

variable [SerdeJson] {α : Type} {messages messages' : List WsMessage}
  {r : Option (Except Error α)}

/-- Where there are no errors, they all surface. -/
theorem ErrorsSurface.of_no_errors
    (h : ∀ text, .text text ∈ messages → ∀ detail, ¬ IsDaemonError text detail) :
    ErrorsSurface messages r :=
  fun text detail hmem herror => absurd herror (h text hmem detail)

/-- Where there are no texts, there are no errors. -/
theorem ErrorsSurface.of_no_text (h : ∀ text, .text text ∉ messages) : ErrorsSurface messages r :=
  .of_no_errors fun text hmem => absurd hmem (h text)

/-- A reply is no error. -/
theorem no_errors_of_reply {text command : String} {reply : Value}
    (h : daemonReply text command = .ok reply) :
    ∀ text', .text text' ∈ [WsMessage.text text] → ∀ detail, ¬ IsDaemonError text' detail := by
  intro text' hmem detail
  obtain rfl := WsMessage.text.inj (List.mem_singleton.mp hmem)
  exact not_isDaemonError h

/-- Where a call has a result, there were no errors. -/
theorem ErrorsSurface.no_errors {a : α} (h : ErrorsSurface messages (some (.ok a))) {text : String}
    (hmem : .text text ∈ messages) (detail : String) : ¬ IsDaemonError text detail := by
  intro herror
  cases h text detail hmem herror

/-- A call that has not returned has taken no error. -/
theorem ErrorsSurface.of_none {β : Type}
    (h : ErrorsSurface messages (none : Option (Except Error α))) :
    ErrorsSurface messages (none : Option (Except Error β)) := by
  intro text detail hmem herror
  cases h text detail hmem herror

/-- Returning an error surfaces what it surfaced before. -/
theorem ErrorsSurface.of_error {β : Type} {err : Error}
    (h : ErrorsSurface messages (some (.error err : Except Error α))) :
    ErrorsSurface messages (some (.error err : Except Error β)) := by
  intro text detail hmem herror
  cases h text detail hmem herror
  rfl

/-- Where a text is no reply, returning that surfaces it. -/
theorem ErrorsSurface.of_reply {text command : String} {err : Error}
    (h : daemonReply text command = .error err) :
    ErrorsSurface [.text text] (some (.error err : Except Error α)) := by
  intro text' detail hmem herror
  obtain rfl := WsMessage.text.inj (List.mem_singleton.mp hmem)
  rw [daemonReply_of_isDaemonError herror] at h
  cases h
  rfl

/-- After messages that are no errors, the errors are among those that follow. -/
theorem ErrorsSurface.append
    (h : ∀ text, .text text ∈ messages → ∀ detail, ¬ IsDaemonError text detail)
    (h' : ErrorsSurface messages' r) : ErrorsSurface (messages ++ messages') r := by
  intro text detail hmem herror
  rcases List.mem_append.mp hmem with hmem | hmem
  · exact absurd herror (h text hmem detail)
  · exact h' text detail hmem herror

/-- After notices of the state and frames, the acknowledgement is that of what follows. -/
theorem Acknowledges.append {ack : Value} (h : ∀ notice, .text notice ∈ messages → IsState notice)
    (h' : Acknowledges messages' ack) : Acknowledges (messages ++ messages') ack := by
  obtain ⟨before, text, rfl, hbefore, hnot, hresponse⟩ := h'
  refine ⟨messages ++ before, text, (List.append_assoc _ _ _).symm, ?_, hnot, hresponse⟩
  intro notice hnotice
  exact (List.mem_append.mp hnotice).elim (h notice) (hbefore notice)

/-- A notice of the state is no error. -/
theorem not_isDaemonError_of_isState {text detail : String} (h : IsState text) :
    ¬ IsDaemonError text detail := by
  obtain ⟨response, hresponse, hname⟩ := h
  rintro ⟨response', hresponse', hname', -⟩
  obtain rfl := Option.some.inj (hresponse.symm.trans hresponse')
  exact absurd (hname.symm.trans hname') (by decide)

end

/-! ## What a capture is -/

/-- The number in a frame that decodes is that of the capture. -/
theorem peekSeq_of_decode {frame : List UInt8} {c : ScopeCapture}
    (h : ScopeCapture.decode frame = .ok c) : peekSeq frame = some c.seq := by
  have hdecodes := decode_inv h
  rw [peekSeq, if_pos ⟨hdecodes.header, hdecodes.magic⟩, hdecodes.seq]

/-- The reply to a command is the first text that is no notice of the state.

**Proof sketch.** Induction on the messages: the loop goes on after frames and after notices. -/
theorem Socket.reply_received [SerdeJson] (command : String) (deadline rounds messages : ℕ) :
    Always (Socket.reply command deadline rounds messages) fun events r =>
      ErrorsSurface (received events) r ∧
        ∀ ack, r = some (.ok ack) → Acknowledges (received events) ack := by
  induction messages with
  | zero => exact ⟨.of_no_text (by simp), by rintro ack ⟨⟩⟩
  | succ messages ih =>
    simp only [Socket.reply, always_bind]
    refine (Socket.read_spec deadline (command ++ " reply") rounds).mono ?_
    rintro events answer ⟨-, -, hreceived⟩
    have hagain : (∀ notice, .text notice ∈ received events → IsState notice) →
        Always (Socket.reply command deadline rounds messages) fun events' r =>
          ErrorsSurface (received (events ++ events')) r ∧
            ∀ ack, r = some (.ok ack) → Acknowledges (received (events ++ events')) ack := by
      intro hstate
      refine ih.mono ?_
      rintro events' r ⟨hsurface, hack⟩
      rw [received_append]
      exact ⟨hsurface.append fun text htext _ => not_isDaemonError_of_isState (hstate text htext),
        fun ack hr => (hack ack hr).append hstate⟩
    rcases answer with _ | err | text | frame | _ | _ | _ | _
    · refine ⟨.of_no_text (by simp [hreceived, readData]), ?_⟩
      rintro ack ⟨⟩
    · refine ⟨.of_no_text (by simp [hreceived, readData]), ?_⟩
      rintro ack ⟨⟩
    · have htext : received events = [.text text] := hreceived
      dsimp only
      cases hreply : daemonReply text command with
      | error err =>
        simp only [always_pure, List.append_nil, htext]
        exact ⟨.of_reply hreply, by rintro ack ⟨⟩⟩
      | ok answer =>
        have hstate := isState_iff hreply
        dsimp only
        split_ifs with hname
        · refine hagain fun notice hnotice => ?_
          rw [htext, List.mem_singleton] at hnotice
          obtain rfl := WsMessage.text.inj hnotice
          exact hstate.mpr hname
        · simp only [always_pure, List.append_nil, htext]
          refine ⟨.of_no_errors (no_errors_of_reply hreply), ?_⟩
          rintro ack ⟨⟩
          exact ⟨[], text, rfl, by simp, mt hstate.mp hname, (daemonReply_eq_ok.mp hreply).1⟩
    all_goals exact hagain (by simp [hreceived, readData])

/-- What the loop returns is the last frame, with the number it was to have.

**Proof sketch.** Induction on the messages: the loop goes on after frames with another number and
after texts that are no errors. -/
theorem Socket.captureLoop_received [SerdeJson] (seq : Option ℕ) (deadline rounds messages : ℕ) :
    Always (Socket.captureLoop seq deadline rounds messages) fun events r =>
      ErrorsSurface (received events) r ∧ ∀ c, r = some (.ok c) → ∃ between frame,
        received events = between ++ [.binary frame] ∧ ScopeCapture.decode frame = .ok c ∧
          ∀ n, seq = some n → c.seq.toNat = n := by
  induction messages with
  | zero => exact ⟨.of_no_text (by simp), by rintro c ⟨⟩⟩
  | succ messages ih =>
    simp only [Socket.captureLoop, always_bind]
    refine (Socket.read_spec deadline "capture" rounds).mono ?_
    rintro events answer ⟨-, -, hreceived⟩
    have hagain : (∀ text, .text text ∈ received events → ∀ detail, ¬ IsDaemonError text detail) →
        Always (Socket.captureLoop seq deadline rounds messages) fun events' r =>
          ErrorsSurface (received (events ++ events')) r ∧ ∀ c, r = some (.ok c) →
            ∃ between frame, received (events ++ events') = between ++ [.binary frame] ∧
              ScopeCapture.decode frame = .ok c ∧ ∀ n, seq = some n → c.seq.toNat = n := by
      intro hnone
      refine ih.mono ?_
      rintro events' r ⟨hsurface, hcapture⟩
      rw [received_append]
      refine ⟨hsurface.append hnone, fun c hr => ?_⟩
      obtain ⟨between, frame, hsplit, hdecode, hseq⟩ := hcapture c hr
      exact ⟨received events ++ between, frame, by rw [hsplit, List.append_assoc], hdecode, hseq⟩
    rcases answer with _ | err | text | frame | _ | _ | _ | _
    · refine ⟨.of_no_text (by simp [hreceived, readData]), ?_⟩
      rintro c ⟨⟩
    · refine ⟨.of_no_text (by simp [hreceived, readData]), ?_⟩
      rintro c ⟨⟩
    · have htext : received events = [.text text] := hreceived
      dsimp only
      cases hreply : daemonReply text "GetTriggeredData" with
      | error err =>
        simp only [always_pure, List.append_nil, htext]
        exact ⟨.of_reply hreply, by rintro c ⟨⟩⟩
      | ok answer =>
        apply hagain
        rw [htext]
        exact no_errors_of_reply hreply
    · have hframe : received events = [.binary frame] := hreceived
      dsimp only
      split_ifs with hseq
      · simp only [always_pure, List.append_nil, hframe]
        refine ⟨.of_no_text (by simp), fun c hr => ?_⟩
        have hdecode : ScopeCapture.decode frame = .ok c := Option.some.inj hr
        refine ⟨[], frame, rfl, hdecode, ?_⟩
        rintro n rfl
        rw [peekSeq_of_decode hdecode] at hseq
        rcases hseq with hseq | hseq
        · cases hseq
        · exact Option.some.inj hseq
      · exact hagain (by simp [hframe])
    all_goals exact hagain (by simp [hreceived, readData])

/-- **A capture is the acknowledged one.** Whatever the daemon sends, and in whatever order,
`Socket::capture` returns a capture only if it decodes from a frame that came after the
acknowledgement, which is the first text that is no notice of the state; where the acknowledgement
has a sequence number, it is the number of the capture. An error of the daemon that comes before is
returned with its message.

**Proof sketch.** The reply to the command is the acknowledgement, and the loop goes on until the
frame with its number. What is peeked at in a frame is what the decoder reads there. -/
theorem capture_acknowledged [SerdeJson] [SerdeInt] (deadline rounds : ℕ) :
    Always (Socket.capture deadline rounds) fun events r =>
      (∀ c, r = some (.ok c) → Acknowledged (received events) c) ∧
        ErrorsSurface (received events) r := by
  simp only [Socket.capture, Socket.send, always_bind, Socket.always_wsSend]
  intro sent
  have hsent : ScopeEvent.data ⟨.send getTriggeredData, sent⟩ = none := rfl
  cases sent with
  | error e => exact ⟨by rintro c ⟨⟩, .of_no_text (by simp [hsent])⟩
  | ok a =>
    simp only [always_bind, always_pure]
    refine (Socket.reply_received "GetTriggeredData" deadline rounds rounds).mono ?_
    rintro events answer ⟨hsurface, hack⟩
    have hreceived : ∀ events' : List ScopeEvent,
        received ([⟨.send getTriggeredData, .ok a⟩] ++ [] ++ (events ++ events')) =
          received events ++ received events' := by
      intro events'
      simp [ScopeEvent.data]
    rcases answer with _ | err | ack
    · rw [always_pure, hreceived, received_nil, List.append_nil]
      exact ⟨by rintro c ⟨⟩, hsurface.of_none⟩
    · rw [always_pure, hreceived, received_nil, List.append_nil]
      exact ⟨by rintro c ⟨⟩, hsurface.of_error⟩
    · refine (Socket.captureLoop_received _ deadline rounds rounds).mono ?_
      rintro events' r ⟨hsurface', hcapture⟩
      rw [hreceived]
      refine ⟨fun c hr => ?_, hsurface'.append fun text htext => hsurface.no_errors htext⟩
      obtain ⟨between, frame, hsplit, hdecode, hseq⟩ := hcapture c hr
      exact ⟨received events, between, frame, ack, by rw [hsplit, List.append_assoc], hack ack rfl,
        hdecode, hseq⟩

end Lager
