import OnDeviceLLM.Cxx.Text

namespace LLM.Launcher

open Cxx Text

/-- What the calls of `recv` on a client socket return until one reports that the client
    has closed or failed; no client sends more than a `std::string` can hold. -/
structure Connection where
  received : List Text
  sized : ∀ chunk ∈ received, 0 < chunk.length ∧ chunk.length ≤ 4096
  fits : received.flatten.length ≤ maxSize

def headersEnd : Text := ascii "\r\n\r\n"

def contentLengthName : Text := ascii "Content-Length:"

/-- Where a loop of `recv_all` leaves off: what has been read, what `recv` has still to return,
    and the calls of `recv` so far. -/
structure Received where
  data : Text
  pending : List Text
  calls : Nat
  deriving DecidableEq

/-- The first loop of `recv_all`. -/
def recvHeaders (data : Text) (calls : Nat) : List Text → Except Exception Received
  -- `received <= 0`
  | [] => .ok ⟨data, [], calls + 1⟩
  | chunk :: rest => do
    let data ← append data chunk
    if find data headersEnd 0 ≠ npos then .ok ⟨data, rest, calls + 1⟩ else recvHeaders data (calls + 1) rest

/-- The second loop of `recv_all`. -/
def recvBody (contentLength : Nat) (data : Text) (alreadyRead calls : Nat) (pending : List Text) :
    Except Exception Received :=
  if alreadyRead < contentLength then
    match pending with
    | [] => .ok ⟨data, [], calls + 1⟩
    | chunk :: rest => do
      let data ← append data chunk
      recvBody contentLength data (sizeAdd alreadyRead chunk.length) (calls + 1) rest
  else .ok ⟨data, pending, calls⟩

/-- The number that `recv_all` reads after the header's name. -/
def contentLength (data : Text) (pos : Nat) : Except Exception Int := do
  let lenStart := findFirstOf data digits pos
  let lenEnd := findFirstNotOf data digits lenStart
  let run ← substr data lenStart (sizeSub lenEnd lenStart)
  stoi run

/-- `recv_all` with the calls of `recv` that it makes. -/
def recvCounted (client : Connection) : Except Exception Received := do
  let headers ← recvHeaders [] 0 client.received
  let pos := find headers.data contentLengthName 0
  let bodyStart := find headers.data headersEnd 0
  if pos ≠ npos ∧ bodyStart ≠ npos then do
    let contentLength ← contentLength headers.data pos
    let alreadyRead := sizeSub headers.data.length (sizeAdd bodyStart 4)
    -- `static_cast<size_t>`
    recvBody (contentLength % 2^64).toNat headers.data alreadyRead headers.calls headers.pending
  else .ok headers

def recvAll (client : Connection) : Except Exception Text := (recvCounted client).map Received.data

def recvCalls (client : Connection) : Except Exception Nat := (recvCounted client).map Received.calls

def jsonOpening : Text := ascii "\x7b\""

def promptKey : Text := ascii "\"prompt\""

def extractPrompt (request : Text) : Except Exception Text := do
  let jsonPos := find request jsonOpening 0
  if jsonPos = npos then .ok []
  else
    let json ← substr request jsonPos npos
    let keyPos := find json promptKey 0
    if keyPos = npos then .ok []
    else
      -- none of the three is compared with `npos`, and `npos + 1` is 0
      let colon := find json (ascii ":") keyPos
      let firstQuote := find json (ascii "\"") colon
      let secondQuote := find json (ascii "\"") (sizeAdd firstQuote 1)
      substr json (sizeAdd firstQuote 1) (sizeSub (sizeSub secondQuote firstQuote) 1)

def makeHttpResponse (body : Text) : Text :=
  ascii "HTTP/1.1 200 OK\r\n" ++ ascii "Content-Type: application/json; charset=utf-8\r\n" ++
    ascii "Content-Length: " ++ ascii (toString body.length) ++ ascii "\r\n" ++
    ascii "Connection: close\r\n" ++ ascii "\r\n" ++ body

def responseBody (answer : Text) : Text := ascii "\x7b\"response\": \"" ++ answer ++ ascii "\"\x7d"

def missingPrompt : Text := ascii "\x7b\"error\": \"Missing prompt in JSON body\"\x7d"

section Loop

variable {σ : Type} (generate : Text → UInt32 → Exec σ Text)

def buildBody (prompt : Text) : Exec σ Text :=
  if prompt ≠ [] then do
    let answer ← generate prompt 128
    pure (responseBody answer)
  else pure missingPrompt

/-- One round of the loop in `main`, from `recv_all` to `make_http_response`. Nothing in it is
    caught. -/
def respond (client : Connection) : Exec σ Text := do
  let request ← Exec.ofExcept (recvAll client)
  let prompt ← Exec.ofExcept (extractPrompt request)
  let responseBody ← buildBody generate prompt
  pure (makeHttpResponse responseBody)

/-- The `while` loop of `main`, left when `accept` fails. -/
def acceptLoop (round : Connection → Exec σ Unit) : List Connection → Exec σ Unit
  | [] => pure ()
  | client :: clients => do
    round client
    acceptLoop round clients

end Loop

/-- The service: the runtime it calls, of which only `generate` matters here, and the
    responses it has sent, latest first. -/
structure Service (ρ : Type) where
  runtime : ρ
  sent : List Text

/-- A `generate` that returns. -/
abbrev Generate (ρ : Type) := Text → UInt32 → ρ → Text × ρ

section Service

variable {ρ : Type} (generate : Generate ρ)

def ask (prompt : Text) (maxTokens : UInt32) : Exec (Service ρ) Text := fun s =>
  let result := generate prompt maxTokens s.runtime
  (.ok result.1, { s with runtime := result.2 })

def send (httpResp : Text) : Exec (Service ρ) Unit :=
  Exec.modify fun s => { s with sent := httpResp :: s.sent }

def serve (client : Connection) : Exec (Service ρ) Unit := do
  let httpResp ← respond (ask generate) client
  send httpResp

end Service

end LLM.Launcher
