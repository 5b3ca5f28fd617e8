import OnDeviceLLM.Launcher.HttpService

namespace LLM.Launcher

open Cxx Text

theorem append_fits {data chunk : Text} (fits : (data ++ chunk).length ≤ maxSize) :
    append data chunk = .ok (data ++ chunk) := by
  rw [List.length_append] at fits
  rw [append, if_neg (by omega)]

/-- A loop that asks for items until it has enough: it took the `taken` fewest that are enough, or
    all there are and then found with one call more that there are no others. -/
structure Fewest (enough : Nat → Prop) (all taken calls : Nat) : Prop where
  within : taken ≤ all
  fewer : ∀ k, k < taken → ¬ enough k
  ended : enough taken ∧ calls = taken ∨ taken = all ∧ ¬ enough taken ∧ calls = taken + 1

namespace Fewest

variable {enough : Nat → Prop} {all taken calls : Nat}

theorem already (now : enough 0) : Fewest enough all 0 0 :=
  ⟨Nat.zero_le all, fun k less => absurd less (Nat.not_lt_zero k), .inl ⟨now, rfl⟩⟩

theorem exhausted (lacking : ¬ enough 0) : Fewest enough 0 0 1 :=
  ⟨Nat.le_refl 0, fun k less => absurd less (Nat.not_lt_zero k), .inr ⟨rfl, lacking, rfl⟩⟩

/-- After `first` items that are not enough without the last of them, the loop goes on. -/
theorem after {first : Nat} (within : first ≤ all) (earlier : ∀ k, k < first → ¬ enough k)
    (rest : Fewest (fun k => enough (first + k)) (all - first) taken calls) :
    Fewest enough all (first + taken) (first + calls) := by
  have bound := rest.within
  refine ⟨by omega, ?_, ?_⟩
  · intro k less
    by_cases early : k < first
    · exact earlier k early
    · obtain ⟨l, rfl⟩ := Nat.exists_eq_add_of_le (not_lt.mp early)
      exact rest.fewer l (by omega)
  · rcases rest.ended with ⟨now, same⟩ | ⟨last, lacking, same⟩
    · exact .inl ⟨now, by rw [same]⟩
    · exact .inr ⟨by omega, lacking, by omega⟩

theorem congr {other : Nat → Prop} (same : ∀ k, enough k ↔ other k) (fewest : Fewest enough all taken calls) :
    Fewest other all taken calls := by
  have equal : enough = other := funext fun k => propext (same k)
  rwa [equal] at fewest

end Fewest

section Receiving

theorem complete_iff {data : Text} (fits : data.length ≤ maxSize) :
    find data headersEnd 0 ≠ npos ↔ headersEnd <:+: data := by
  rw [ne_eq, find_eq_npos_iff fits, not_not]

/-- What has been read when `recv_all` looks for the headers: everything up to the first
    `recv` after which their end is in. -/
def headerText (data : Text) : List Text → Text
  | [] => data
  | chunk :: rest =>
    if find (data ++ chunk) headersEnd 0 ≠ npos then data ++ chunk else headerText (data ++ chunk) rest

def Connection.headers (client : Connection) : Text := headerText [] client.received

theorem take_one_add (chunk : Text) (chunks : List Text) (data : Text) (k : Nat) :
    data ++ ((chunk :: chunks).take (1 + k)).flatten = data ++ chunk ++ (chunks.take k).flatten := by
  rw [Nat.add_comm, List.take_succ_cons, List.flatten_cons, List.append_assoc]

/-- The first loop stops with the first piece after which the headers are complete. -/
theorem recvHeaders_spec (chunks : List Text) :
    ∀ data calls, (data ++ chunks.flatten).length ≤ maxSize → ¬ headersEnd <:+: data →
      ∃ taken made, recvHeaders data calls chunks =
          .ok ⟨data ++ (chunks.take taken).flatten, chunks.drop taken, calls + made⟩ ∧
        headerText data chunks = data ++ (chunks.take taken).flatten ∧
        Fewest (fun k => headersEnd <:+: data ++ (chunks.take k).flatten) chunks.length taken made := by
  induction chunks with
  | nil =>
    intro data calls _ incomplete
    have same : data ++ (List.take 0 ([] : List Text)).flatten = data := List.append_nil data
    refine ⟨0, 1, ?_, ?_, .exhausted ?_⟩
    all_goals rw [same]
    · rfl
    · rfl
    · exact incomplete
  | cons chunk chunks ih =>
    intro data calls fits incomplete
    rw [List.flatten_cons, ← List.append_assoc] at fits
    have first : (data ++ chunk).length ≤ maxSize := by
      rw [List.length_append] at fits
      omega
    have earlier : ∀ k, k < 1 → ¬ headersEnd <:+: data ++ ((chunk :: chunks).take k).flatten := by
      intro k less
      have zero : k = 0 := by omega
      rw [zero, List.take_zero, List.flatten_nil, List.append_nil]
      exact incomplete
    have some : 1 ≤ (chunk :: chunks).length := Nat.succ_le_succ (Nat.zero_le _)
    rw [recvHeaders, headerText, append_fits first]
    by_cases complete : find (data ++ chunk) headersEnd 0 ≠ npos
    · refine ⟨1, 1, ?_, ?_, .after some earlier (.already ?_)⟩
      all_goals rw [take_one_add chunk chunks data 0, List.take_zero, List.flatten_nil, List.append_nil]
      · exact if_pos complete
      · rw [if_pos complete]
      · exact (complete_iff first).mp complete
    · have incomplete' : ¬ headersEnd <:+: data ++ chunk := fun occurs => complete ((complete_iff first).mpr occurs)
      obtain ⟨taken, made, returned, text, fewest⟩ := ih (data ++ chunk) (calls + 1) fits incomplete'
      refine ⟨1 + taken, 1 + made, ?_, ?_, .after some earlier (fewest.congr fun k => ?_)⟩
      · rw [take_one_add, Nat.add_comm 1 taken, List.drop_succ_cons, ← Nat.add_assoc]
        exact (if_neg complete).trans returned
      · rw [take_one_add, if_neg complete]
        exact text
      · rw [take_one_add]

/-- The second loop stops with the first piece that makes the length. -/
theorem recvBody_spec (length : Nat) (chunks : List Text) :
    ∀ data alreadyRead calls, (data ++ chunks.flatten).length ≤ maxSize → alreadyRead ≤ data.length →
      ∃ taken made, recvBody length data alreadyRead calls chunks =
          .ok ⟨data ++ (chunks.take taken).flatten, chunks.drop taken, calls + made⟩ ∧
        Fewest (fun k => length ≤ alreadyRead + (chunks.take k).flatten.length) chunks.length taken made := by
  have bound : maxSize < 2^63 := by decide
  induction chunks with
  | nil =>
    intro data alreadyRead calls _ _
    have same : data ++ (List.take 0 ([] : List Text)).flatten = data := List.append_nil data
    rw [recvBody]
    by_cases more : alreadyRead < length
    · refine ⟨0, 1, ?_, .exhausted (not_le.mpr more)⟩
      rw [if_pos more, same, List.drop_zero]
    · refine ⟨0, 0, ?_, .already (not_lt.mp more)⟩
      rw [if_neg more, same, List.drop_zero, Nat.add_zero]
  | cons chunk chunks ih =>
    intro data alreadyRead calls fits inside
    rw [List.flatten_cons, ← List.append_assoc] at fits
    have first : (data ++ chunk).length ≤ maxSize := by
      rw [List.length_append] at fits
      omega
    have size : (data ++ chunk).length = data.length + chunk.length := List.length_append
    rw [recvBody]
    by_cases more : alreadyRead < length
    · have sum : sizeAdd alreadyRead chunk.length = alreadyRead + chunk.length := sizeAdd_of_lt (by omega)
      obtain ⟨taken, made, returned, fewest⟩ :=
        ih (data ++ chunk) (alreadyRead + chunk.length) (calls + 1) fits (by omega)
      rw [if_pos more]
      refine ⟨1 + taken, 1 + made, ?_,
        .after (Nat.succ_le_succ (Nat.zero_le _)) (fun k less => ?_) (fewest.congr fun k => ?_)⟩
      · rw [take_one_add, Nat.add_comm 1 taken, List.drop_succ_cons, ← Nat.add_assoc, ← returned, append_fits first,
          ← sum]
        rfl
      · have zero : k = 0 := by omega
        rw [zero]
        exact not_le.mpr more
      · rw [Nat.add_comm 1 k, List.take_succ_cons, List.flatten_cons, List.length_append, Nat.add_assoc]
    · refine ⟨0, 0, ?_, .already (not_lt.mp more)⟩
      rw [if_neg more, List.take_zero, List.flatten_nil, List.append_nil, List.drop_zero, Nat.add_zero]

theorem Connection.taken_fits (client : Connection) (n : Nat) : (client.received.take n).flatten.length ≤ maxSize := by
  have fits := client.fits
  rw [← List.take_append_drop n client.received, List.flatten_append, List.length_append] at fits
  omega

theorem Connection.read_headers (client : Connection) :
    ∃ taken made, recvHeaders [] 0 client.received = .ok ⟨client.headers, client.received.drop taken, made⟩ ∧
      client.headers = (client.received.take taken).flatten ∧
      Fewest (fun k => headersEnd <:+: (client.received.take k).flatten) client.received.length taken made := by
  have nothing : ¬ headersEnd <:+: ([] : Text) := by decide
  obtain ⟨taken, made, read, text, fewest⟩ :=
    recvHeaders_spec client.received [] 0 (by rw [List.nil_append]; exact client.fits) nothing
  simp only [List.nil_append, Nat.zero_add] at read text fewest
  rw [← Connection.headers] at text
  rw [← text] at read
  exact ⟨taken, made, read, text, fewest⟩

/-- Complete headers that name a content length have a digit after the name, and the first
    run of digits there fits an `int`. -/
def WellSized (data : Text) : Prop :=
  find data contentLengthName 0 ≠ npos → find data headersEnd 0 ≠ npos →
    digitRun (data.drop (find data contentLengthName 0)) ≠ [] ∧
      decimal (digitRun (data.drop (find data contentLengthName 0))) < 2^31

instance (data : Text) : Decidable (WellSized data) := inferInstanceAs (Decidable (_ → _ → _ ∧ _))

theorem contentLength_eq {data : Text} (fits : data.length ≤ maxSize) (pos : Nat) :
    contentLength data pos =
      if digitRun (data.drop pos) ≠ [] ∧ decimal (digitRun (data.drop pos)) < 2^31 then
        .ok (decimal (digitRun (data.drop pos)) : Int)
      else .error .outOfRange := by
  show substr data _ _ >>= stoi = _
  rw [substr_digits fits]
  by_cases none : digitRun (data.drop pos) = []
  · rw [if_pos none, if_neg (fun both => both.1 none)]
    rfl
  · rw [if_neg none]
    show stoi (digitRun (data.drop pos)) = _
    rw [stoi_digits none (digitRun_digits _)]
    by_cases small : decimal (digitRun (data.drop pos)) < 2^31
    · rw [if_pos small, if_pos ⟨none, small⟩]
    · rw [if_neg small, if_neg (fun both => small both.2)]

theorem recvAll_of_counted {client : Connection} {received : Received} (returned : recvCounted client = .ok received) :
    recvAll client = .ok received.data ∧ recvCalls client = .ok received.calls := by
  rw [recvAll, recvCalls, returned]
  exact ⟨rfl, rfl⟩

theorem alreadyRead_le {data : Text} (fits : data.length ≤ maxSize) (complete : find data headersEnd 0 ≠ npos) :
    sizeSub data.length (sizeAdd (find data headersEnd 0) 4) ≤ data.length := by
  have position : find data headersEnd 0 + headersEnd.length ≤ data.length :=
    (find_bound data 0).resolve_left complete
  have four : headersEnd.length = 4 := by decide
  have bound : maxSize < 2^63 := by decide
  rw [sizeAdd_of_lt (by omega), sizeSub_of_le (by omega) (by omega)]
  omega

theorem recvAll_outcome (client : Connection) :
    (WellSized client.headers ∧ ∃ request, recvAll client = .ok request ∧ request.length ≤ maxSize) ∨
    (¬ WellSized client.headers ∧ recvAll client = .error .outOfRange) := by
  obtain ⟨taken, made, read, text, _⟩ := client.read_headers
  have short : client.headers.length ≤ maxSize := by
    rw [text]
    exact client.taken_fits taken
  have fits : (client.headers ++ (client.received.drop taken).flatten).length ≤ maxSize := by
    rw [text, ← List.flatten_append, List.take_append_drop]
    exact client.fits
  have length := contentLength_eq short (find client.headers contentLengthName 0)
  rw [recvAll, recvCounted, read]
  simp only [bind, Except.bind]
  by_cases sized : find client.headers contentLengthName 0 ≠ npos ∧ find client.headers headersEnd 0 ≠ npos
  · rw [if_pos sized, length]
    by_cases good : digitRun (client.headers.drop (find client.headers contentLengthName 0)) ≠ [] ∧
        decimal (digitRun (client.headers.drop (find client.headers contentLengthName 0))) < 2^31
    · left
      rw [if_pos good]
      obtain ⟨more, _, returned, _⟩ := recvBody_spec _ (client.received.drop taken) client.headers _ made fits
        (alreadyRead_le short sized.2)
      refine ⟨fun _ _ => good, client.headers ++ ((client.received.drop taken).take more).flatten,
        congrArg (Except.map Received.data) returned, ?_⟩
      rw [text, ← List.flatten_append, ← List.take_add]
      exact client.taken_fits (taken + more)
    · right
      rw [if_neg good]
      exact ⟨fun wellSized => good (wellSized sized.1 sized.2), rfl⟩
  · left
    rw [if_neg sized]
    exact ⟨fun named complete => absurd ⟨named, complete⟩ sized, client.headers, rfl, short⟩

end Receiving

/-- The position after a match is inside the text, and after a failed search it is 0, since
    `npos + 1` wraps. -/
theorem sizeAdd_find_le {s needle : Text} (fits : s.length ≤ maxSize) (nonempty : 1 ≤ needle.length)
    (pos : Nat) : sizeAdd (find s needle pos) 1 ≤ s.length := by
  rcases @find_bound s needle pos with none | inside
  · rw [none]
    exact Nat.zero_le _
  · have bound : maxSize < 2^63 := by decide
    rw [sizeAdd_of_lt (by omega)]
    omega

theorem extractPrompt_returns {request : Text} (fits : request.length ≤ maxSize) :
    ∃ prompt, extractPrompt request = .ok prompt := by
  unfold extractPrompt
  by_cases noJson : find request jsonOpening 0 = npos
  · exact ⟨[], by simp only [noJson, if_true]⟩
  · have position : find request jsonOpening 0 + jsonOpening.length ≤ request.length :=
      (find_bound request 0).resolve_left noJson
    have cut : substr request (find request jsonOpening 0) npos =
        .ok ((request.drop (find request jsonOpening 0)).take npos) := by
      rw [substr, if_neg (by omega)]
    simp only [if_neg noJson, cut, bind, Except.bind]
    generalize jsonDef : (request.drop (find request jsonOpening 0)).take npos = json
    have short : json.length ≤ maxSize := by
      rw [← jsonDef, List.length_take, List.length_drop]
      omega
    by_cases noKey : find json promptKey 0 = npos
    · exact ⟨[], if_pos noKey⟩
    · have inside := @sizeAdd_find_le json (ascii "\"") short (by decide)
        (find json (ascii ":") (find json promptKey 0))
      rw [if_neg noKey, substr, if_neg (by omega)]
      exact ⟨_, rfl⟩

section Responding

variable {σ : Type} (generate : Text → UInt32 → Exec σ Text)

theorem respond_extracted {client : Connection} {request prompt : Text} (s : σ)
    (received : recvAll client = .ok request) (extracted : extractPrompt request = .ok prompt) :
    respond generate client s =
      (buildBody generate prompt >>= fun responseBody => pure (makeHttpResponse responseBody)) s := by
  have first : (Exec.ofExcept (recvAll client) : Exec σ Text) s = (.ok request, s) := by
    rw [received]
    rfl
  have second : (Exec.ofExcept (extractPrompt request) : Exec σ Text) s = (.ok prompt, s) := by
    rw [extracted]
    rfl
  rw [respond, Exec.bind_of_ok first, Exec.bind_of_ok second]

theorem respond_illSized {client : Connection} (illSized : ¬ WellSized client.headers) (s : σ) :
    respond generate client s = (.error (.threw .outOfRange), s) := by
  have thrown : recvAll client = .error .outOfRange := by
    rcases recvAll_outcome client with ⟨wellSized, _⟩ | ⟨_, thrown⟩
    · exact absurd wellSized illSized
    · exact thrown
  have first : (Exec.ofExcept (recvAll client) : Exec σ Text) s = (.error (.threw .outOfRange), s) := by
    rw [thrown]
    rfl
  exact Exec.bind_of_error first

theorem exists_extracted {client : Connection} (wellSized : WellSized client.headers) :
    ∃ request prompt, recvAll client = .ok request ∧ extractPrompt request = .ok prompt := by
  rcases recvAll_outcome client with ⟨_, request, received, fits⟩ | ⟨illSized, _⟩
  · obtain ⟨prompt, extracted⟩ := extractPrompt_returns fits
    exact ⟨request, prompt, received, extracted⟩
  · exact absurd wellSized illSized

theorem respond_built {client : Connection} {request prompt body : Text} {s s' : σ}
    (received : recvAll client = .ok request) (extracted : extractPrompt request = .ok prompt)
    (built : buildBody generate prompt s = (.ok body, s')) :
    respond generate client s = (.ok (makeHttpResponse body), s') := by
  rw [respond_extracted generate s received extracted, Exec.bind_of_ok built]
  rfl

theorem buildBody_prompted {prompt answer : Text} {s s' : σ} (nonempty : prompt ≠ [])
    (answered : generate prompt 128 s = (.ok answer, s')) :
    buildBody generate prompt s = (.ok (responseBody answer), s') := by
  rw [buildBody, if_pos nonempty, Exec.bind_of_ok answered]
  rfl

end Responding

section Serving

variable {ρ : Type} (generate : Generate ρ)

theorem buildBody_ask (prompt : Text) (s : Service ρ) :
    ∃ body s', buildBody (ask generate) prompt s = (.ok body, s') ∧ s'.sent = s.sent := by
  by_cases none : prompt = []
  · exact ⟨missingPrompt, s, by rw [none]; rfl, rfl⟩
  · exact ⟨_, _, buildBody_prompted (ask generate) none rfl, rfl⟩

theorem serve_extracted {client : Connection} {request prompt body : Text} {s s' : Service ρ}
    (received : recvAll client = .ok request) (extracted : extractPrompt request = .ok prompt)
    (built : buildBody (ask generate) prompt s = (.ok body, s')) :
    serve generate client s = (.ok (), { s' with sent := makeHttpResponse body :: s'.sent }) :=
  Exec.bind_of_ok (respond_built (ask generate) received extracted built)

theorem serve_outcome (client : Connection) (s : Service ρ) :
    (WellSized client.headers ∧ ∃ response s', serve generate client s = (.ok (), s') ∧
      s'.sent = response :: s.sent) ∨
    (¬ WellSized client.headers ∧ serve generate client s = (.error (.threw .outOfRange), s)) := by
  by_cases wellSized : WellSized client.headers
  · obtain ⟨request, prompt, received, extracted⟩ := exists_extracted wellSized
    obtain ⟨body, s', built, same⟩ := buildBody_ask generate prompt s
    exact .inl ⟨wellSized, _, _, serve_extracted generate received extracted built, by rw [same]⟩
  · exact .inr ⟨wellSized, Exec.bind_of_error (respond_illSized (ask generate) wellSized s)⟩

/-- The loop sends one response for each connection exactly when every connection's headers
    are well sized; otherwise the service is gone. -/
theorem acceptLoop_answers_iff (clients : List Connection) (s : Service ρ) :
    (∃ s', acceptLoop (serve generate) clients s = (.ok (), s') ∧
      s'.sent.length = s.sent.length + clients.length) ↔
    ∀ client ∈ clients, WellSized client.headers := by
  induction clients generalizing s with
  | nil => exact ⟨fun _ _ member => absurd member List.not_mem_nil, fun _ => ⟨s, rfl, rfl⟩⟩
  | cons client clients ih =>
    rcases serve_outcome generate client s with ⟨wellSized, response, s', served, sent⟩ | ⟨illSized, thrown⟩
    · have loop : acceptLoop (serve generate) (client :: clients) s = acceptLoop (serve generate) clients s' :=
        Exec.bind_of_ok served
      have count : s'.sent.length + clients.length = s.sent.length + (client :: clients).length := by
        rw [sent, List.length_cons, List.length_cons]
        omega
      rw [loop, ← count, ih s', List.forall_mem_cons]
      exact ⟨fun rest => ⟨wellSized, rest⟩, fun all => all.2⟩
    · have loop : acceptLoop (serve generate) (client :: clients) s = (.error (.threw .outOfRange), s) :=
        Exec.bind_of_error thrown
      rw [loop]
      constructor
      · intro answered
        obtain ⟨s', returned, _⟩ := answered
        cases returned
      · intro all
        exact absurd (all client List.mem_cons_self) illSized

def wordLength : Connection where
  received := [ascii "POST / HTTP/1.1\r\nContent-Length: ten\r\n\r\n"]
  sized := by decide
  fits := by decide

theorem acceptLoop_stops :
    ¬ ∃ s', acceptLoop (serve fun _ _ (s : Unit) => ([], s)) [wordLength] { runtime := (), sent := [] } =
        (.ok (), s') ∧ s'.sent.length = 0 + [wordLength].length := by
  intro answered
  obtain ⟨s', returned, _⟩ := answered
  have thrown : (acceptLoop (serve fun _ _ (s : Unit) => ([], s)) [wordLength]
      { runtime := (), sent := [] }).1 = .error (.threw .outOfRange) := by decide +kernel
  rw [returned] at thrown
  cases thrown

end Serving

end LLM.Launcher
