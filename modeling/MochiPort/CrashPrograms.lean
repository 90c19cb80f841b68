import Mathlib.Logic.Basic

/-! Programs whose operations may fail, and which may be cut off before any of them. -/

namespace CrashPrograms

/-- A program asks one operation after the other; `fail` is an error that nothing after it handles. -/
inductive Program (Op : Type) (Answer : Op → Type) (ε α : Type)
  | done (value : α)
  | fail (error : ε)
  | call (op : Op) (next : Answer op → Program Op Answer ε α)

/-- What an operation does and answers in a world, when it goes through and when a fault hits it. -/
structure Machine (Op : Type) (Answer : Op → Type) (Fault World : Type) where
  perform : (op : Op) → Fault → World → Answer op × World
  calm : Fault

namespace Program

variable {Op Fault World ε α β : Type} {Answer : Op → Type}

def bind (p : Program Op Answer ε α) (f : α → Program Op Answer ε β) : Program Op Answer ε β :=
  match p with
  | done value => f value
  | fail error => fail error
  | call op next => call op fun answer => (next answer).bind f

instance : Monad (Program Op Answer ε) where
  pure := done
  bind := bind

def ask (op : Op) : Program Op Answer ε (Answer op) := call op done

/-- The faults say what happens to each operation; the program is cut off, without an outcome, where they end. -/
def run (machine : Machine Op Answer Fault World) :
    List Fault → World → Program Op Answer ε α → World × Option (Except ε α)
  | _, world, done value => (world, some (.ok value))
  | _, world, fail error => (world, some (.error error))
  | [], world, call _ _ => (world, none)
  | fault :: faults, world, call op next =>
    run machine faults (machine.perform op fault world).2 (next (machine.perform op fault world).1)

def calmly (machine : Machine Op Answer Fault World) : World → Program Op Answer ε α → World × Except ε α
  | world, done value => (world, .ok value)
  | world, fail error => (world, .error error)
  | world, call op next =>
    calmly machine (machine.perform op machine.calm world).2 (next (machine.perform op machine.calm world).1)

variable {p : Program Op Answer ε α}

theorem calmly_bind_ok {machine : Machine Op Answer Fault World} {f : α → Program Op Answer ε β}
    {world world' : World} {value : α} (h : calmly machine world p = (world', .ok value)) :
    calmly machine world (p >>= f) = calmly machine world' (f value) := by
  induction p generalizing world with
  | done value' =>
    cases h
    rfl
  | fail error => cases h
  | call op next ih => exact ih _ h

/-- Every operation that the run comes to is allowed to meet the fault that it meets. -/
def Meets (machine : Machine Op Answer Fault World) (allowed : Op → Fault → World → Prop) :
    List Fault → World → Program Op Answer ε α → Prop
  | _, _, done _ => True
  | _, _, fail _ => True
  | [], _, call _ _ => True
  | fault :: faults, world, call op next =>
    allowed op fault world ∧
      Meets machine allowed faults (machine.perform op fault world).2 (next (machine.perform op fault world).1)

/-- Whatever allowed faults come, the invariant holds after every operation, and the program ends as `ends` says. -/
def Safe (machine : Machine Op Answer Fault World) (allowed : Op → Fault → World → Prop) (inv : World → Prop)
    (ends : World → Except ε α → Prop) : World → Program Op Answer ε α → Prop
  | world, done value => ends world (.ok value)
  | world, fail error => ends world (.error error)
  | world, call op next =>
    ∀ fault, allowed op fault world →
      inv (machine.perform op fault world).2 ∧
        Safe machine allowed inv ends (machine.perform op fault world).2 (next (machine.perform op fault world).1)

variable {machine : Machine Op Answer Fault World} {allowed : Op → Fault → World → Prop} {inv : World → Prop}

variable {world : World}

theorem meets_of_forall {faults : List Fault} (h : ∀ fault ∈ faults, ∀ op world, allowed op fault world) :
    Meets machine allowed faults world p := by
  induction p generalizing faults world with
  | done value | fail error => cases faults <;> trivial
  | call op next ih =>
    cases faults with
    | nil => trivial
    | cons fault faults =>
      exact ⟨h fault List.mem_cons_self op world, ih _ fun f hf => h f (List.mem_cons_of_mem _ hf)⟩

@[simp] theorem run_done (faults : List Fault) (world : World) (value : α) :
    run machine faults world (done value : Program Op Answer ε α) = (world, some (.ok value)) := by
  cases faults <;> rfl

@[simp] theorem run_fail (faults : List Fault) (world : World) (error : ε) :
    run machine faults world (fail error : Program Op Answer ε α) = (world, some (.error error)) := by
  cases faults <;> rfl

theorem exists_run_calm (machine : Machine Op Answer Fault World) (world : World) (p : Program Op Answer ε α) :
    ∃ n, run machine (List.replicate n machine.calm) world p =
      ((calmly machine world p).1, some (calmly machine world p).2) := by
  induction p generalizing world with
  | done value | fail error => exact ⟨0, rfl⟩
  | call op next ih =>
    obtain ⟨n, hn⟩ := ih (machine.perform op machine.calm world).1 (machine.perform op machine.calm world).2
    exact ⟨n + 1, hn⟩

variable {ends : World → Except ε α → Prop}

theorem Safe.mono {ends ends' : World → Except ε α → Prop}
    (h : ∀ world outcome, ends world outcome → ends' world outcome) (hp : Safe machine allowed inv ends world p) :
    Safe machine allowed inv ends' world p := by
  induction p generalizing world with
  | done value | fail error => exact h world _ hp
  | call op next ih =>
    intro fault hallowed
    obtain ⟨hinv, hnext⟩ := hp fault hallowed
    exact ⟨hinv, ih _ hnext⟩

theorem Safe.bind {ends : World → Except ε β → Prop} {f : α → Program Op Answer ε β} (hp : Safe machine allowed inv
      (fun world outcome =>
        match outcome with
        | .ok value => Safe machine allowed inv ends world (f value)
        | .error error => ends world (.error error)) world p) :
    Safe machine allowed inv ends world (p >>= f) := by
  induction p generalizing world with
  | done value | fail error => exact hp
  | call op next ih =>
    intro fault hallowed
    obtain ⟨hinv, hnext⟩ := hp fault hallowed
    exact ⟨hinv, ih _ hnext⟩

theorem Safe.run {faults : List Fault} (hp : Safe machine allowed inv ends world p) (hworld : inv world)
    (hends : ∀ world outcome, ends world outcome → inv world) (hmeets : Meets machine allowed faults world p) :
    inv (run machine faults world p).1 ∧
      ∀ outcome, (run machine faults world p).2 = some outcome → ends (run machine faults world p).1 outcome := by
  induction p generalizing faults world with
  | done value =>
    rw [run_done]
    refine ⟨hends world _ hp, fun outcome houtcome => ?_⟩
    cases houtcome
    exact hp
  | fail error =>
    rw [run_fail]
    refine ⟨hends world _ hp, fun outcome houtcome => ?_⟩
    cases houtcome
    exact hp
  | call op next ih =>
    cases faults with
    | nil => exact ⟨hworld, fun outcome houtcome => by cases houtcome⟩
    | cons fault faults =>
      obtain ⟨hallowed, hrest⟩ := hmeets
      obtain ⟨hinv, hnext⟩ := hp fault hallowed
      exact ih _ hnext hinv hrest

end Program

end CrashPrograms
