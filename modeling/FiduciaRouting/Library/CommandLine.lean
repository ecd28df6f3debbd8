import Mathlib.Data.List.Basic

/-! Command lines read by one loop. Each argument ends the run, stands alone, or
takes the next argument as its value; the value may be missing at the end. -/

namespace FiduciaRouting.Library.CommandLine

variable {σ γ α ε : Type}

inductive Arm (σ : Type) where
  | halt
  | alone (state : σ)
  | valued (state : σ)

inductive Ending (σ : Type) where
  | halted
  | finished (state : σ)

/-- The arm is shown the argument that follows its own; the loop skips that
argument when the arm has taken it. -/
def loop (arm : σ → String → Option String → Except ε (Arm σ)) : σ → List String → Except ε (Ending σ)
  | state, [] => .ok (.finished state)
  | state, [argument] =>
    match arm state argument none with
    | .error failure => .error failure
    | .ok .halt => .ok .halted
    | .ok (.alone after) => .ok (.finished after)
    | .ok (.valued after) => .ok (.finished after)
  | state, argument :: value :: rest =>
    match arm state argument (some value) with
    | .error failure => .error failure
    | .ok .halt => .ok .halted
    | .ok (.alone after) => loop arm after (value :: rest)
    | .ok (.valued after) => loop arm after rest

variable {arm : σ → String → Option String → Except ε (Arm σ)} {state after : σ} {argument value : String}
  {rest : List String} {ending : Ending σ}

theorem loop_halt (halts : arm state argument rest.head? = .ok .halt) :
    loop arm state (argument :: rest) = .ok .halted := by
  cases rest with
  | nil =>
    have last : arm state argument none = .ok .halt := halts
    simp only [loop, last]
  | cons value rest =>
    have read : arm state argument (some value) = .ok .halt := halts
    simp only [loop, read]

theorem loop_alone (read : arm state argument rest.head? = .ok (.alone after)) :
    loop arm state (argument :: rest) = loop arm after rest := by
  cases rest with
  | nil =>
    have last : arm state argument none = .ok (.alone after) := read
    simp only [loop, last]
  | cons value rest =>
    have first : arm state argument (some value) = .ok (.alone after) := read
    simp only [loop, first]

theorem loop_valued (read : arm state argument (some value) = .ok (.valued after)) :
    loop arm state (argument :: value :: rest) = loop arm after rest := by
  simp only [loop, read]

/-- How a run ends once its complete groups are read: at the end of the line, at
a last argument whose value is missing, or at an argument that halts it. -/
inductive Closes (arm : σ → String → Option String → Except ε (Arm σ)) : σ → List String → Ending σ → Prop where
  | done {state : σ} : Closes arm state [] (.finished state)
  | bare {state after : σ} {argument : String} (read : arm state argument none = .ok (.valued after)) :
      Closes arm state [argument] (.finished after)
  | halt {state : σ} {argument : String} {rest : List String} (halts : arm state argument rest.head? = .ok .halt) :
      Closes arm state (argument :: rest) .halted

theorem Closes.loop_eq (closes : Closes arm state rest ending) : loop arm state rest = .ok ending := by
  cases closes with
  | done => rfl
  | bare read => simp only [loop, read]
  | halt halts => exact loop_halt halts

/-- A grammar of groups: the arms accept a complete group exactly when there is
one with these words, and its effect is that group's. -/
structure Grammar (arm : σ → String → Option String → Except ε (Arm σ)) (words : γ → List String)
    (apply : σ → γ → σ) : Prop where
  alone : ∀ {state argument next after}, arm state argument next = .ok (.alone after) →
    ∃ group, words group = [argument] ∧ apply state group = after
  valued : ∀ {state argument value after}, arm state argument (some value) = .ok (.valued after) →
    ∃ group, words group = [argument, value] ∧ apply state group = after
  complete : ∀ state group,
    (∃ argument, words group = [argument] ∧ ∀ next, arm state argument next = .ok (.alone (apply state group))) ∨
    ∃ argument value, words group = [argument, value] ∧
      arm state argument (some value) = .ok (.valued (apply state group))

namespace Grammar

variable {words : γ → List String} {apply : σ → γ → σ}

theorem loop_words_append (grammar : Grammar arm words apply) (state : σ) (group : γ) (rest : List String) :
    loop arm state (words group ++ rest) = loop arm (apply state group) rest := by
  obtain ⟨argument, same, read⟩ | ⟨argument, value, same, read⟩ := grammar.complete state group
  · rw [same, List.singleton_append]
    exact loop_alone (read rest.head?)
  · rw [same]
    exact loop_valued read

theorem loop_groups_append (grammar : Grammar arm words apply) (state : σ) (groups : List γ) (rest : List String) :
    loop arm state (groups.flatMap words ++ rest) = loop arm (groups.foldl apply state) rest := by
  induction groups generalizing state with
  | nil => rfl
  | cons group groups ih =>
    rw [List.flatMap_cons, List.append_assoc, grammar.loop_words_append, ih, List.foldl_cons]

/-- Complete groups, then one of the endings. -/
def Reads (arm : σ → String → Option String → Except ε (Arm σ)) (words : γ → List String) (apply : σ → γ → σ)
    (state : σ) (line : List String) (ending : Ending σ) : Prop :=
  ∃ (groups : List γ) (rest : List String), line = groups.flatMap words ++ rest ∧
    Closes arm (groups.foldl apply state) rest ending

theorem Reads.of_closes (closes : Closes arm state rest ending) : Reads arm words apply state rest ending :=
  ⟨[], rest, rfl, closes⟩

theorem Reads.prepend (group : γ) (reads : Reads arm words apply (apply state group) rest ending) :
    Reads arm words apply state (words group ++ rest) ending := by
  obtain ⟨groups, tail, rfl, closes⟩ := reads
  exact ⟨group :: groups, tail, by rw [List.flatMap_cons, List.append_assoc], closes⟩

/-- The loop returns exactly on the lines the grammar reads. -/
theorem loop_eq_ok_iff (grammar : Grammar arm words apply) (state : σ) (line : List String) :
    loop arm state line = .ok ending ↔ Reads arm words apply state line ending := by
  constructor
  · intro returned
    fun_induction loop arm state line
    next state =>
      cases returned
      exact .of_closes .done
    next failed => cases returned
    next state argument halts =>
      cases returned
      exact .of_closes (.halt halts)
    next state argument after read =>
      obtain ⟨group, same, rfl⟩ := grammar.alone read
      cases returned
      have reads : Reads arm words apply state (words group ++ []) (.finished (apply state group)) :=
        Reads.prepend group (.of_closes .done)
      rwa [same] at reads
    next state argument after read =>
      cases returned
      exact .of_closes (.bare read)
    next failed => cases returned
    next state argument value rest halts =>
      cases returned
      exact .of_closes (.halt halts)
    next state argument value rest after read ih =>
      obtain ⟨group, same, rfl⟩ := grammar.alone read
      have reads := (ih returned).prepend group
      rwa [same] at reads
    next state argument value rest after read ih =>
      obtain ⟨group, same, rfl⟩ := grammar.valued read
      have reads := (ih returned).prepend group
      rwa [same] at reads
  · intro reads
    obtain ⟨groups, rest, rfl, closes⟩ := reads
    rw [grammar.loop_groups_append]
    exact closes.loop_eq

end Grammar

section LastValue

variable {value : γ → Option α}

def lastValue (value : γ → Option α) (groups : List γ) : Option α := (groups.filterMap value).getLast?

theorem lastValue_cons (value : γ → Option α) (group : γ) (groups : List γ) :
    lastValue value (group :: groups) = (lastValue value groups).or (value group) := by
  rw [lastValue, lastValue, List.filterMap_cons]
  cases value group with
  | none => rw [Option.or_none]
  | some given => rw [List.getLast?_cons, Option.or_some]

theorem lastValue_eq_none_iff {groups : List γ} : lastValue value groups = none ↔ ∀ group ∈ groups, value group = none := by
  rw [lastValue, List.getLast?_eq_none_iff, List.filterMap_eq_nil_iff]

theorem exists_of_lastValue {groups : List γ} {given : α} (last : lastValue value groups = some given) :
    ∃ group ∈ groups, value group = some given :=
  List.mem_filterMap.mp (List.mem_of_getLast? last)

/-- Reading the texts that groups carry commutes with taking the last one, when
every text they carry can be read. -/
theorem lastValue_bind {β : Type} {text : γ → Option β} {read : β → Option α} {groups : List γ}
    (reads : ∀ group, value group = (text group).bind read)
    (readable : ∀ group given, text group = some given → (read given).isSome) :
    lastValue value groups = (lastValue text groups).bind read := by
  induction groups with
  | nil => rfl
  | cons group groups ih =>
    rw [lastValue_cons, lastValue_cons, ih, reads]
    cases last : lastValue text groups with
    | none => rw [Option.bind_none, Option.none_or, Option.none_or]
    | some given =>
      obtain ⟨carrier, _, same⟩ := exists_of_lastValue last
      obtain ⟨result, denotes⟩ := Option.isSome_iff_exists.mp (readable carrier given same)
      rw [Option.bind_some, denotes, Option.some_or, Option.some_or, Option.bind_some, denotes]

end LastValue

end FiduciaRouting.Library.CommandLine
