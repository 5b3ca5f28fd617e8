import OnDeviceLLM.Core.Recovery

namespace LLM.Core

open Cxx Hardware Hal Memory

def need (spec : HardwareSpec) : Nat := (weightSize spec.tier).toNat + (kvSize spec.tier).toNat

/-- One load more than there is memory still counts in 64 bits. -/
def Plausible (spec : HardwareSpec) : Prop := spec.availableRamBytes.toNat + need spec < 2^64

instance (spec : HardwareSpec) : Decidable (Plausible spec) :=
  inferInstanceAs (Decidable (spec.availableRamBytes.toNat + need spec < 2^64))

/-- Room for one more load besides `n` that are never given back. -/
def Room (spec : HardwareSpec) (n : Nat) : Prop := (n + 1) * need spec ≤ spec.availableRamBytes.toNat

/-- The account of a client that never shuts down, after `n` exceptions. -/
structure Account.Counts (spec : HardwareSpec) (n : Nat) (a : Account) : Prop where
  same : a.spec = spec
  blocks : ∀ r, a.blocks r = n
  bounded : n * need spec ≤ spec.availableRamBytes.toNat

namespace Account.Counts

variable {spec : HardwareSpec} {n : Nat} {a : Account}

theorem opened (spec : HardwareSpec) : Counts spec 0 (.opened spec) :=
  ⟨rfl, fun _ => rfl, by rw [Nat.zero_mul]; exact Nat.zero_le _⟩

theorem used (counts : Counts spec n a) : a.used.toNat = n * need spec := by
  have bounded := counts.bounded
  have memory := spec.availableRamBytes.toNat_lt
  have total : a.blocks .ram * (Resource.ram.size a.spec.tier).toNat +
      a.blocks .kv * (Resource.kv.size a.spec.tier).toNat = n * need spec := by
    rw [counts.blocks, counts.blocks, counts.same, ← Nat.mul_add]
    rfl
  rw [Account.used, total, UInt64.toNat_ofNat']
  exact Nat.mod_eq_of_lt (by omega)

theorem used_taken (counts : Counts spec n a) (likely : Plausible spec) :
    (a.taken .ram).used.toNat = n * need spec + (weightSize spec.tier).toNat := by
  have bounded := counts.bounded
  have total : (a.taken .ram).blocks .ram * (Resource.ram.size a.spec.tier).toNat +
      (a.taken .ram).blocks .kv * (Resource.kv.size a.spec.tier).toNat =
        n * need spec + (weightSize spec.tier).toNat := by
    have kept : (a.taken .ram).blocks .kv = n := counts.blocks .kv
    have grown : (a.taken .ram).blocks .ram = n + 1 := congrArg (· + 1) (counts.blocks .ram)
    rw [kept, grown, counts.same, Nat.add_mul, need, Nat.mul_add]
    simp only [Resource.size]
    omega
  have same : (a.taken .ram).spec = a.spec := rfl
  rw [Plausible, need] at likely
  rw [Account.used, same, total, UInt64.toNat_ofNat']
  exact Nat.mod_eq_of_lt (by omega)

theorem room_iff (counts : Counts spec n a) (likely : Plausible spec) :
    Room spec n ↔ ¬ a.Refuses .ram ∧ ¬ (a.taken .ram).Refuses .kv := by
  have used := counts.used
  have bounded := counts.bounded
  have weighted := counts.used_taken likely
  rw [Plausible] at likely
  have same : (a.taken .ram).spec = a.spec := rfl
  rw [Refuses, Refuses, same, gt_iff_lt, gt_iff_lt, UInt64.lt_iff_toNat_lt, UInt64.lt_iff_toNat_lt,
    UInt64.toNat_add, UInt64.toNat_add, used, weighted, counts.same, Room, Nat.add_mul, Nat.one_mul]
  simp only [Resource.size, need] at *
  omega

theorem of_blocks (counts : Counts spec n a) {a' : Account} (same : a'.spec = a.spec)
    (blocks : a'.blocks = a.blocks) : Counts spec n a' :=
  ⟨same.trans counts.same, fun r => blocks ▸ counts.blocks r, counts.bounded⟩

theorem loaded (counts : Counts spec n a) (room : Room spec n) : Counts spec (n + 1) a.loaded := by
  refine ⟨counts.same, fun r => ?_, room⟩
  rw [← counts.blocks r]
  cases r <;> rfl

theorem unloaded_loaded (counts : Counts spec n a) : Counts spec n a.loaded.unloaded := by
  rw [Account.unloaded_loaded]
  exact counts.of_blocks rfl rfl

/-- With a heap that gives, a load is served exactly where there is room, and takes nothing where
    there is none. -/
theorem load (counts : Counts spec n a) (likely : Plausible spec) :
    Spec.Ensures (Load False) a fun outcome a' =>
      (Room spec n ∧ outcome = .ok true ∧ a' = a.loaded) ∨ (¬ Room spec n ∧ outcome = .ok false ∧ Counts spec n a') := by
  intro outcome a' load
  have room := counts.room_iff likely
  cases load with
  | ramRefused refused =>
    exact .inr ⟨fun fits => (room.mp fits).1 refused, rfl, counts.of_blocks rfl rfl⟩
  | ramFailed _ fails => exact fails.elim
  | kvRefused _ refused =>
    exact .inr ⟨fun fits => (room.mp fits).2 refused, rfl, counts.of_blocks rfl rfl⟩
  | kvFailed _ _ fails => exact fails.elim
  | loaded admitted admittedKv => exact .inl ⟨room.mpr ⟨admitted, admittedKv⟩, rfl, rfl⟩

end Account.Counts

/-- A generation or a look at the state, but no `initialize` and no `shutdown`. -/
def Call.Working : Call → Prop
  | .initializeRuntime _ _ => False
  | .shutdown => False
  | _ => True

def Call.Charged (spec : HardwareSpec) (n : Nat) : Call → Except Stop Response → Prop
  | .generate _ _, result =>
    ∃ text, result = .ok (.generated text) ∧ (text ≠ generateError ↔ Room spec n)
  | .generateStreaming _ onToken, result =>
    (Room spec n ∧ onToken.Throws ∧ result = .error (.threw .user)) ∨
    ((onToken.Throws → ¬ Room spec n) ∧ ∃ ok, result = .ok (.streamed ok) ∧ (ok = true ↔ Room spec n))
  | _, result => ∃ response, result = .ok response

def exceptions {α : Type} : Except Stop α → Nat
  | .ok _ => 0
  | .error _ => 1

/-- Along the run every exception takes one load away for good, and nothing else does. -/
def Charges (env : Environment) (spec : HardwareSpec) : Nat → List Call → World → Prop
  | n, [], w => ∃ m, w.runtime.memoryManager = some m ∧ m.allocated.toNat = n * need spec
  | n, call :: calls, w =>
    (∃ m, w.runtime.memoryManager = some m ∧ m.allocated.toNat = n * need spec) ∧
    call.Charged spec n (call.exec env w).1 ∧
    Charges env spec (n + exceptions (call.exec env w).1) calls (call.exec env w).2

section Charges

variable {env : Environment} {level : UInt64 → UInt64 → MemoryPressure} {spec : HardwareSpec} {n : Nat}
  {a : Account} {w : World}

theorem Account.Counts.generate (counts : a.Counts spec n)
    (likely : Plausible spec) :
    Spec.Ensures (Account.generate False) a fun outcome a' =>
      ∃ text, outcome = .ok text ∧ (text ≠ generateError ↔ Room spec n) ∧ a'.Counts spec n := by
  refine Spec.Ensures.bind (counts.load likely) ?_ ?_
  · rintro e a' (⟨_, returned, _⟩ | ⟨_, returned, _⟩) <;> cases returned
  · rintro loaded a' (⟨room, returned, rfl⟩ | ⟨full, returned, counts'⟩) <;> cases returned
    · refine Spec.Ensures.bind (Account.named_present rfl) ?_ ?_
      · rintro e a' ⟨_, returned⟩
        cases returned
      rintro _ a' ⟨rfl, _⟩ outcome a'' allowed
      rcases allowed with ⟨_, _, stopped, _⟩ | ⟨_, middle, ⟨_, rfl⟩, rfl, rfl⟩
      · cases stopped
      · exact ⟨_, rfl, ⟨fun _ => room, fun _ => by decide⟩, counts.unloaded_loaded⟩
    · exact .pure ⟨_, rfl, ⟨fun differs => absurd rfl differs, fun room => absurd room full⟩, counts'⟩

theorem Account.Counts.streaming (counts : a.Counts spec n)
    (likely : Plausible spec) {onToken : OnToken} (passive : onToken.Passive) :
    Spec.Ensures (Account.generateStreaming False (onToken.account False level)) a fun outcome a' =>
      (Room spec n ∧ onToken.Throws ∧ outcome = .error (.threw .user) ∧ a'.Counts spec (n + 1)) ∨
      ((onToken.Throws → ¬ Room spec n) ∧ (∃ ok, outcome = .ok ok ∧ (ok = true ↔ Room spec n)) ∧ a'.Counts spec n) := by
  refine Spec.Ensures.bind (counts.load likely) ?_ ?_
  · rintro e a' (⟨_, returned, _⟩ | ⟨_, returned, _⟩) <;> cases returned
  · rintro loaded a' (⟨room, returned, rfl⟩ | ⟨full, returned, counts'⟩) <;> cases returned
    · refine Spec.Ensures.bind (Account.stream_passive passive rfl) ?_ ?_
      · rintro e a' ⟨rfl, ⟨throws, stopped⟩ | ⟨_, returned⟩⟩
        · exact .inl ⟨room, throws, Except.error.inj stopped ▸ rfl, counts.loaded room⟩
        · cases returned
      rintro _ a' ⟨rfl, ⟨_, stopped⟩ | ⟨quiet, _⟩⟩ outcome a'' allowed
      · cases stopped
      rcases allowed with ⟨_, _, stopped, _⟩ | ⟨_, middle, ⟨_, rfl⟩, rfl, rfl⟩
      · cases stopped
      · exact .inr ⟨fun throws => absurd throws quiet, ⟨true, rfl, fun _ => room, fun _ => rfl⟩,
          counts.unloaded_loaded⟩
    · exact .pure (.inr ⟨fun _ => full, ⟨false, rfl, nofun, fun room => absurd room full⟩, counts'⟩)

theorem Call.charged_account (counts : a.Counts spec n)
    (likely : Plausible spec) {call : Call} (passive : call.Passive)
    (working : call.Working) :
    Spec.Ensures (call.account False level) a fun outcome a' =>
      call.Charged spec n outcome ∧ a'.Counts spec (n + exceptions outcome) := by
  cases call with
  | initializeRuntime modelPath detected => exact working.elim
  | generate prompt maxTokens =>
    refine Spec.Ensures.bind (counts.generate likely) ?_ ?_
    · rintro e a' ⟨_, returned, _⟩
      cases returned
    · rintro text a' ⟨_, returned, served, counts'⟩
      cases returned
      exact .pure ⟨⟨text, rfl, served⟩, counts'⟩
  | generateStreaming prompt onToken =>
    refine Spec.Ensures.bind (counts.streaming likely passive) ?_ ?_
    · rintro e a' (⟨room, throws, stopped, counts'⟩ | ⟨_, ⟨_, returned, _⟩, _⟩)
      · cases stopped
        exact ⟨.inl ⟨room, throws, rfl⟩, counts'⟩
      · cases returned
    · rintro ok a' (⟨_, _, stopped, _⟩ | ⟨full, ⟨_, returned, served⟩, counts'⟩)
      · cases stopped
      · cases returned
        exact .pure ⟨.inr ⟨full, ok, rfl, served⟩, counts'⟩
  | getDeviceSpec =>
    rintro outcome a' (⟨_, _, stopped, _⟩ | ⟨_, middle, ⟨_, rfl⟩, rfl, rfl⟩)
    · cases stopped
    · exact ⟨⟨_, rfl⟩, counts⟩
  | getMemoryStats =>
    rintro outcome a' (⟨_, _, stopped, _⟩ | ⟨_, middle, ⟨_, rfl⟩, rfl, rfl⟩)
    · cases stopped
    · exact ⟨⟨_, rfl⟩, counts⟩
  | shutdown => exact working.elim

theorem Booked.counted (booked : Booked w a) (counts : a.Counts spec n) :
    ∃ m, w.runtime.memoryManager = some m ∧ m.allocated.toNat = n * need spec := by
  obtain ⟨m, books⟩ := booked
  refine ⟨m, books.manager, ?_⟩
  rw [books.tallies.allocated books.sound, counts.used]

theorem Booked.charges (generous : Generous env) (likely : Plausible spec)
    (calls : List Call) (working : ∀ call ∈ calls, call.Passive ∧ call.Working) :
    ∀ n a w, Booked w a → a.Counts spec n → Charges env spec n calls w := by
  induction calls with
  | nil => exact fun _ _ _ booked counts => booked.counted counts
  | cons call calls ih =>
    intro n a w booked counts
    obtain ⟨a', allowed, booked'⟩ := call.refines env w a booked
    have never : (¬ Generous env) = False := eq_false (not_not_intro generous)
    rw [never] at allowed
    have here := working call List.mem_cons_self
    obtain ⟨charged, counts'⟩ := Call.charged_account counts likely here.1 here.2 _ _ allowed
    exact ⟨booked.counted counts, charged,
      ih (fun c member => working c (List.mem_cons_of_mem call member)) _ a' _ booked' counts'⟩

/-- What an exception out of a callback costs a client that never shuts down: the runtime serves
    a request after `n` of them exactly where `n + 1` loads fit the memory that was detected. -/
theorem exceptions_charged (env : Environment) (generous : Generous env) (modelPath : String)
    (detected : HardwareSpec) (likely : Plausible detected)
    (calls : List Call) (working : ∀ call ∈ calls, call.Passive ∧ call.Working) :
    Charges env detected 0 calls ((Call.initializeRuntime modelPath detected).exec env World.create).2 :=
  Booked.charges generous likely calls working 0 _ _ (opened_booked env modelPath detected) (.opened detected)

def narrowSpec : HardwareSpec := WindowsHardwareDetector.detect (1024 * 1024 * 1024) (600 * 1024 * 1024)

def costlyCalls : List Call :=
  [.generateStreaming "first" (.callable .throws .returns .returns), .generate "second" 16,
    .generateStreaming "third" (.callable .returns .returns .throws), .getMemoryStats,
    .generateStreaming "fourth" (.callable .throws .returns .returns), .generate "fifth" 16]

theorem exceptions_charged_costly :
    Charges (.bump fun _ _ => true) narrowSpec 0 costlyCalls
      ((Call.initializeRuntime "model" narrowSpec).exec (.bump fun _ _ => true) World.create).2 :=
  exceptions_charged (.bump fun _ _ => true) ⟨fun _ _ => rfl, fun _ => rfl⟩ "model" narrowSpec (by decide) costlyCalls
    (by simp [costlyCalls, Call.Passive, Call.Working, OnToken.Passive, Script.Passive])

end Charges

end LLM.Core
