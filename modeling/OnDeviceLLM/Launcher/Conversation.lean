import OnDeviceLLM.Launcher.Fragmentation
import OnDeviceLLM.Launcher.Landmarks

namespace LLM.Launcher

open Cxx Text

/-- A client that sends a well-formed request, in whatever pieces: the headers announce the body
    and have no brace before a quote, and the body is an object in which the prompt is spelled
    plainly after its landmarks. -/
structure Exchange where
  client : Connection
  head : Http.Head
  prompt : Text
  body : Json.StringMember (ascii "prompt") prompt
  announced : Announces head body.text.length
  small : body.text.length ≤ 2147483647
  stream : client.received.flatten = head.text ++ body.text
  noOpening : ¬ jsonOpening <:+: head.text
  lands : Lands body.before
  unescaped : body.raw = prompt
  nonempty : prompt ≠ []

namespace Exchange

variable (exchange : Exchange)

theorem fits : (exchange.head.text ++ exchange.body.text).length ≤ maxSize := by
  rw [← exchange.stream]
  exact exchange.client.fits

/-- All of the stream is taken, and nothing more is asked for. -/
theorem received : recvAll exchange.client = .ok (exchange.head.text ++ exchange.body.text) ∧
    recvCalls exchange.client = .ok exchange.client.received.length :=
  recvAll_of_counted (exchange.announced.received exchange.small (List.append_nil _).symm exchange.stream)

theorem extracted : extractPrompt (exchange.head.text ++ exchange.body.text) = .ok exchange.prompt := by
  have fits := exchange.fits
  have bodyFits : exchange.body.text.length ≤ maxSize := by
    rw [List.length_append] at fits
    omega
  have noQuote : Json.quote ∉ exchange.prompt := by
    have shown := exchange.body.raw_spells.length_le.2 (by rw [exchange.unescaped])
    rw [← exchange.unescaped]
    exact shown.2
  rw [extractPrompt_append exchange.noOpening fits]
  rw [Json.StringMember.text, exchange.unescaped] at bodyFits ⊢
  exact @extractPrompt_lands [] _ _ _ List.not_mem_nil exchange.lands noQuote bodyFits

/-- The request that comes cut inside the number, inside the blank line and inside the body. -/
def inPieces : Exchange where
  client := piecewise
  head := postHead
  prompt := ascii "hi"
  body := plainBody
  announced := by
    have length : plainBody.text.length = 15 := by decide
    rw [length]
    exact postHead_announces
  small := by decide
  stream := by decide
  noOpening := by decide
  lands := lands_of_plain_key plainBody (by decide) (by decide) (by decide)
  unescaped := rfl
  nonempty := by decide

end Exchange

section Conversation

variable {ρ : Type} (generate : Generate ρ)

def converse : List Text → ρ → List Text × ρ
  | [], runtime => ([], runtime)
  | prompt :: prompts, runtime =>
    let first := generate prompt 128 runtime
    let rest := converse prompts first.2
    (first.1 :: rest.1, rest.2)

theorem serve_exchange (exchange : Exchange) (s : Service ρ) :
    serve generate exchange.client s = (.ok (),
      { runtime := (generate exchange.prompt 128 s.runtime).2
        sent := makeHttpResponse (responseBody (generate exchange.prompt 128 s.runtime).1) :: s.sent }) :=
  serve_answers generate s exchange.received.1 exchange.extracted exchange.nonempty

theorem acceptLoop_exchanges (exchanges : List Exchange) : ∀ s : Service ρ,
    acceptLoop (serve generate) (exchanges.map Exchange.client) s = (.ok (),
      { runtime := (converse generate (exchanges.map Exchange.prompt) s.runtime).2
        sent := ((converse generate (exchanges.map Exchange.prompt) s.runtime).1.map
          fun text => makeHttpResponse (responseBody text)).reverse ++ s.sent }) := by
  induction exchanges with
  | nil => exact fun _ => rfl
  | cons exchange exchanges ih =>
    intro s
    have loop : acceptLoop (serve generate) ((exchange :: exchanges).map Exchange.client) s =
        acceptLoop (serve generate) (exchanges.map Exchange.client) _ :=
      Exec.bind_of_ok (serve_exchange generate exchange s)
    rw [loop, ih]
    simp only [converse, List.map_cons, List.reverse_cons, List.append_assoc, List.cons_append, List.nil_append]

theorem framed_answers (texts : List Text) :
    List.Forall₂ (fun response text => ∃ body, Http.receive response = some body ∧ (Carries body text ↔ Json.Plain text))
      (texts.map fun text => makeHttpResponse (responseBody text)) texts := by
  induction texts with
  | nil => exact .nil
  | cons text texts ih => exact .cons ⟨_, receive_makeHttpResponse _, Carries.plain, carries_plain⟩ ih

/-- Through the whole service: whatever pieces the requests come in, the runtime is asked exactly
    the prompts that the clients wrote, in their order, no client is read from beyond its request,
    and each response carries the answer to its own prompt wherever the answer needs no escape. -/
theorem conversation_round_trip (exchanges : List Exchange) (s : Service ρ) :
    ∃ responses s', acceptLoop (serve generate) (exchanges.map Exchange.client) s = (.ok (), s') ∧
      s'.sent = responses.reverse ++ s.sent ∧
      s'.runtime = (converse generate (exchanges.map Exchange.prompt) s.runtime).2 ∧
      List.Forall₂ (fun response text => ∃ body, Http.receive response = some body ∧
          (Carries body text ↔ Json.Plain text))
        responses (converse generate (exchanges.map Exchange.prompt) s.runtime).1 ∧
      ∀ exchange ∈ exchanges, recvCalls exchange.client = .ok exchange.client.received.length :=
  ⟨_, _, acceptLoop_exchanges generate exchanges s, rfl, rfl, framed_answers _,
    fun exchange _ => exchange.received.2⟩

theorem conversation_round_trip_inPieces :
    ∃ s' : Service Nat,
      acceptLoop (serve fun prompt _ asked => (prompt, asked + 1)) [Exchange.inPieces.client, Exchange.inPieces.client]
        ⟨0, []⟩ = (.ok (), s') ∧ s'.runtime = 2 := by
  obtain ⟨_, s', served, _, runtime, _⟩ :=
    conversation_round_trip (fun prompt _ asked => (prompt, asked + 1)) [.inPieces, .inPieces] ⟨0, []⟩
  exact ⟨s', served, runtime⟩

end Conversation

end LLM.Launcher
