import CommandSuite.Registry

/-!
# What a registry holds after its calls

A registry remembers of the cases that were registered the place of the first and the case of the
last under each name. `putCase_cases` is the inversion of one call: the case goes to the end, or
into the place of its namesake with nothing else moved. `Registry.Holds` is the invariant that
follows: the names stand in the order in which they came first, and a name is looked up as in the
history of the calls, from its end. `Registry.Built` names the registries that calls lead to, and
`Registry.Built.placed_first_held_last` says all of this of each of them, call by call.
-/

namespace CommandSuite

/-! ## One call -/

/-- A call puts the case behind all others if its name is new; else the case takes the place of
its namesake, which the call returns. -/
theorem putCase_cases (c : TestCase) (cases : List TestCase) :
    (c.name ∉ cases.map TestCase.name ∧ putCase c cases = (none, cases ++ [c])) ∨
      ∃ before old after, cases = before ++ old :: after ∧ old.name = c.name ∧
        c.name ∉ before.map TestCase.name ∧
        putCase c cases = (some old, before ++ c :: after) := by
  induction cases with
  | nil => exact .inl ⟨by simp, rfl⟩
  | cons d ds ih =>
    by_cases same : d.name = c.name
    · exact .inr ⟨[], d, ds, rfl, same, by simp, by simp [putCase, same]⟩
    · have other : ¬ c.name = d.name := fun h => same h.symm
      rcases ih with ⟨fresh, put⟩ | ⟨before, old, after, rfl, named, fresh, put⟩
      · refine .inl ⟨?_, by simp [putCase, same, put]⟩
        rw [List.map_cons, List.mem_cons, not_or]
        exact ⟨other, fresh⟩
      · refine .inr ⟨d :: before, old, after, rfl, named, ?_, by simp [putCase, same, put]⟩
        rw [List.map_cons, List.mem_cons, not_or]
        exact ⟨other, fresh⟩

/-- A name that no case has is found nowhere. -/
theorem find?_name_eq_none_iff {cases : List TestCase} {name : String} :
    cases.find? (·.name = name) = none ↔ name ∉ cases.map TestCase.name := by
  simp only [List.find?_eq_none, decide_eq_true_eq, List.mem_map, not_exists, not_and]

namespace Registry

@[simp] theorem registerAll_nil (registry : Registry) : registry.registerAll [] = registry := rfl

/-- A call with a new name: nothing is returned, and the case goes to the end. -/
theorem exchange_of_fresh {registry : Registry} {c : TestCase}
    (fresh : c.name ∉ registry.cases.map TestCase.name) :
    (registry.exchange c).1 = none ∧ (registry.register c).cases = registry.cases ++ [c] := by
  rcases putCase_cases c registry.cases with ⟨_, put⟩ | ⟨before, old, after, split, named, _, _⟩
  · exact ⟨congrArg Prod.fst put, congrArg Prod.snd put⟩
  · rw [split] at fresh
    exact (fresh (by simp [named])).elim

/-- A call with a name that is taken: the namesake is returned, and the case stands where it
stood. -/
theorem exchange_of_taken {registry : Registry} {c : TestCase}
    (taken : c.name ∈ registry.cases.map TestCase.name) :
    ∃ before old after, registry.cases = before ++ old :: after ∧ old.name = c.name ∧
      c.name ∉ before.map TestCase.name ∧ (registry.exchange c).1 = some old ∧
      (registry.register c).cases = before ++ c :: after := by
  rcases putCase_cases c registry.cases with
    ⟨fresh, _⟩ | ⟨before, old, after, split, named, fresh, put⟩
  · exact (fresh taken).elim
  · exact ⟨before, old, after, split, named, fresh, congrArg Prod.fst put, congrArg Prod.snd put⟩

/-- A call returns what was stored under the name of its case. -/
theorem exchange_fst (registry : Registry) (c : TestCase) :
    (registry.exchange c).1 = registry.get? c.name := by
  by_cases taken : c.name ∈ registry.cases.map TestCase.name
  · obtain ⟨before, old, after, split, named, fresh, returned, _⟩ := exchange_of_taken taken
    have skipped := find?_name_eq_none_iff.2 fresh
    rw [returned, get?, split, List.find?_append, skipped, Option.none_or]
    simp [named]
  · rw [(exchange_of_fresh taken).1]
    exact (find?_name_eq_none_iff.2 taken).symm

/-- A call that returns nothing puts its case at the end. -/
theorem register_of_exchange_none {registry : Registry} {c : TestCase}
    (returned : (registry.exchange c).1 = none) :
    (registry.register c).cases = registry.cases ++ [c] := by
  rw [exchange_fst] at returned
  exact (exchange_of_fresh (find?_name_eq_none_iff.1 returned)).2

/-- A call that returns a case puts its own into the place of that one. -/
theorem register_of_exchange_some {registry : Registry} {c old : TestCase}
    (returned : (registry.exchange c).1 = some old) :
    ∃ i, registry.cases[i]? = some old ∧ old.name = c.name ∧
      (registry.register c).cases = registry.cases.set i c := by
  by_cases taken : c.name ∈ registry.cases.map TestCase.name
  · obtain ⟨before, found, after, split, named, _, fst, stored⟩ := exchange_of_taken taken
    obtain rfl := Option.some.inj (fst.symm.trans returned)
    refine ⟨before.length, ?_, named, ?_⟩
    · rw [split, List.getElem?_append_right (Nat.le_refl _)]
      simp
    · rw [stored, split, List.set_append_right _ _ (Nat.le_refl _)]
      simp
  · rw [(exchange_of_fresh taken).1] at returned
    cases returned

/-- After a call its case is stored under its name, and all other names are as they were. -/
theorem get?_register (registry : Registry) (c : TestCase) (name : String) :
    (registry.register c).get? name = if c.name = name then some c else registry.get? name := by
  by_cases taken : c.name ∈ registry.cases.map TestCase.name
  · obtain ⟨before, old, after, split, named, fresh, _, stored⟩ := exchange_of_taken taken
    rw [get?, get?, stored, split, List.find?_append, List.find?_append]
    by_cases same : c.name = name
    · subst same
      rw [find?_name_eq_none_iff.2 fresh]
      simp
    · have other : ¬ old.name = name := fun h => same (named.symm.trans h)
      simp [same, other]
  · rw [get?, get?, (exchange_of_fresh taken).2, List.find?_append]
    by_cases same : c.name = name
    · subst same
      rw [find?_name_eq_none_iff.2 taken]
      simp
    · simp [same]

/-- A call adds the name of its case at the end, unless it is there. -/
theorem names_register (registry : Registry) (c : TestCase) :
    (registry.register c).cases.map TestCase.name =
      if c.name ∈ registry.cases.map TestCase.name then registry.cases.map TestCase.name
      else registry.cases.map TestCase.name ++ [c.name] := by
  split
  case isTrue taken =>
    obtain ⟨before, old, after, split, named, _, _, stored⟩ := exchange_of_taken taken
    simp [stored, split, named]
  case isFalse fresh => simp [(exchange_of_fresh fresh).2]

/-- Looking up the name of a case that is stored finds this case. -/
theorem get?_of_mem {registry : Registry} {c : TestCase} (stored : c ∈ registry.cases) :
    registry.get? c.name = some c := by
  obtain ⟨before, after, split⟩ := List.append_of_mem stored
  have distinct := registry.distinct
  rw [split, List.map_append, List.map_cons, List.nodup_append] at distinct
  have fresh : c.name ∉ before.map TestCase.name := fun h =>
    distinct.2.2 c.name h c.name (by simp) rfl
  rw [get?, split, List.find?_append, find?_name_eq_none_iff.2 fresh]
  simp

/-! ## All calls -/

/-- The case that was registered last under a name. -/
def lastNamed (history : List TestCase) (name : String) : Option TestCase :=
  history.reverse.find? (·.name = name)

theorem lastNamed_concat (history : List TestCase) (c : TestCase) (name : String) :
    lastNamed (history ++ [c]) name =
      if c.name = name then some c else lastNamed history name := by
  rw [lastNamed, List.reverse_concat, List.find?_cons]
  by_cases same : c.name = name <;> simp [same, lastNamed]

theorem lastNamed_eq_none_iff {history : List TestCase} {name : String} :
    lastNamed history name = none ↔ name ∉ history.map TestCase.name := by
  rw [lastNamed, find?_name_eq_none_iff, List.map_reverse, List.mem_reverse]

/-- A text at the end of a list is a first occurrence unless it stands before. -/
theorem eraseDups_concat (names : List String) (name : String) :
    (names ++ [name]).eraseDups =
      if name ∈ names then names.eraseDups else names.eraseDups ++ [name] := by
  rw [List.eraseDups_append]
  by_cases seen : name ∈ names <;> simp [List.removeAll, List.eraseDups_cons, seen]

/-- What the registry holds of a history of calls: names as they came first, cases as they came
last. -/
structure Holds (registry : Registry) (history : List TestCase) : Prop where
  names : registry.cases.map TestCase.name = (history.map TestCase.name).eraseDups
  get? : ∀ name, registry.get? name = lastNamed history name

theorem Holds.empty (config : Config) : (Registry.empty config).Holds [] :=
  ⟨rfl, fun _ => rfl⟩

theorem Holds.register {registry : Registry} {history : List TestCase}
    (holds : registry.Holds history) (c : TestCase) :
    (registry.register c).Holds (history ++ [c]) := by
  refine ⟨?_, fun name => ?_⟩
  · rw [names_register, holds.names, List.map_append, List.map_singleton, eraseDups_concat]
    simp only [List.mem_eraseDups]
  · rw [get?_register, lastNamed_concat, holds.get?]

theorem Holds.registerAll {registry : Registry} {history : List TestCase}
    (holds : registry.Holds history) (cs : List TestCase) :
    (registry.registerAll cs).Holds (history ++ cs) := by
  induction cs generalizing registry history with
  | nil => simpa using holds
  | cons c cs ih => simpa [Registry.registerAll] using ih (holds.register c)

/-- The registries that calls lead to, each with the cases of these calls in their order. -/
inductive Built (config : Config) : Registry → List TestCase → Prop
  | empty : Built config (Registry.empty config) []
  | builtin : Built config (Registry.withBuiltin config) (builtinCases config)
  | register {registry : Registry} {history : List TestCase} (c : TestCase) :
    Built config registry history → Built config (registry.register c) (history ++ [c])

theorem Built.holds {config : Config} {registry : Registry} {history : List TestCase}
    (built : Built config registry history) : registry.Holds history := by
  induction built with
  | empty => exact .empty config
  | builtin => exact (Holds.empty config).registerAll (builtinCases config)
  | register c _ ih => exact ih.register c

/-- The names of the cases that every compiler must pass stay in front. -/
theorem Holds.names_of_builtin {config : Config} {registry : Registry} {history : List TestCase}
    (holds : registry.Holds history) (first : builtinCases config <+: history) :
    ∃ later, registry.cases.map TestCase.name = "help" :: "version" :: later := by
  obtain ⟨rest, rfl⟩ := first
  have names := holds.names
  rw [List.map_append, List.eraseDups_append] at names
  exact ⟨_, names⟩

/-- **Names in the order of their first calls, cases of their last.** From any registry that calls
have led to, any further calls lead to one whose names are distinct and stand as they came first,
and in which each name is found with the case that came last under it. The next call returns what
was stored under its name; it puts the case into that place and leaves all others, or at the
end. -/
theorem Built.placed_first_held_last {config : Config} {start : Registry}
    {history : List TestCase} (built : Built config start history) (cs : List TestCase) :
    let registry := start.registerAll cs
    let calls := history ++ cs
    (registry.cases.map TestCase.name).Nodup ∧
    registry.cases.map TestCase.name = (calls.map TestCase.name).eraseDups ∧
    (∀ c ∈ registry.cases, lastNamed calls c.name = some c) ∧
    (∀ name, registry.get? name = lastNamed calls name) ∧
    (∀ name, registry.get? name = none ↔ name ∉ calls.map TestCase.name) ∧
    (∀ c, (registry.exchange c).1 = registry.get? c.name ∧
      ((registry.exchange c).1 = none →
        (registry.exchange c).2.cases = registry.cases ++ [c]) ∧
      ∀ old, (registry.exchange c).1 = some old →
        ∃ i, registry.cases[i]? = some old ∧ old.name = c.name ∧
          (registry.exchange c).2.cases = registry.cases.set i c) ∧
    (builtinCases config <+: history →
      registry.cases[0]?.map TestCase.name = some "help" ∧
      registry.cases[1]?.map TestCase.name = some "version") := by
  intro registry calls
  have holds : registry.Holds calls := built.holds.registerAll cs
  refine ⟨registry.distinct, holds.names, fun c stored => ?_, holds.get?, fun name => ?_,
    fun c => ⟨exchange_fst registry c, register_of_exchange_none,
      fun old => register_of_exchange_some⟩, fun first => ?_⟩
  · rw [← holds.get?, get?_of_mem stored]
  · rw [holds.get?, lastNamed_eq_none_iff]
  · obtain ⟨later, names⟩ := holds.names_of_builtin (first.trans (List.prefix_append history cs))
    rw [← List.getElem?_map, ← List.getElem?_map, names]
    exact ⟨rfl, rfl⟩

/-- A suite that brings a case `version` of its own, and one more. -/
theorem placed_first_held_last_version :
    let own (name : String) : TestCase :=
      { name, description := none, invocation := .direct "arxc" ["-V"], expected := "1" }
    let registry := (withBuiltin {}).registerAll [own "version", own "extra", own "version"]
    registry.cases.map TestCase.name = ["help", "version", "extra"] ∧
      registry.get? "version" = some (own "version") ∧
      (registry.exchange (own "extra")).1 = registry.get? "extra" ∧
      registry.cases[1]?.map TestCase.name = some "version" := by
  intro own registry
  have built : Built {} (withBuiltin {}) (builtinCases {}) := .builtin
  obtain ⟨_, names, _, found, _, call, front⟩ :=
    built.placed_first_held_last [own "version", own "extra", own "version"]
  exact ⟨names.trans (by decide), (found "version").trans (by decide), (call (own "extra")).1,
    (front List.prefix_rfl).2⟩

end Registry

end CommandSuite
