import Mathlib.Data.List.Induction
import RemoteCall.Extension.Loader
import RemoteCall.Proofs.Dictionary

/-! # Instances follow their registrations

    The names of a capability are registered and looked up in any order
    (`Act`).  A lookup gives an instance with the number of its build, and the
    log of the builds tells which registration had the factory that was called,
    so the two numbers settle which factory made an instance.

    What an act does is told by what a name has then (`get?_perform`) and by the
    log (`builds_perform`).  A run keeps the invariant `Sound`: an instance is
    one of its entry's own registration, and a factory without an instance was
    never called.  A factory that was replaced has no entry any more, so nothing
    calls it (`Retired`).  Together this tells of each factory whether it was
    called (`Sound.mem_builds_iff`).

    Last, the factories and the instances are put into a table each (`Tables`).
    The two tables stay in step with the entries (`InStep.perform`), so that the
    lookups give the same. -/

namespace RemoteCall.Extension

variable {α : Type}

/-- An entry after a lookup, for which a new build has a number if there has to be one. -/
def Entry.looked (build : Nat) (entry : Entry α) : Entry α :=
  { entry with build := entry.build.or (some build) }

theorem Entry.looked_of_built {entry : Entry α} {build : Nat} (built : entry.build = some build)
    {other : Nat} : entry.looked other = entry := by
  rw [looked, built, Option.some_or, ← built]

theorem Entry.build_looked_of_none {entry : Entry α} (unbuilt : entry.build = none) {build : Nat} :
    (entry.looked build).build = some build := by
  rw [looked, unbuilt, Option.none_or]

theorem Entry.isSome_build_looked (entry : Entry α) (build : Nat) :
    (entry.looked build).build.isSome = true := by
  rw [looked, Option.isSome_or, Option.isSome_some, Bool.or_true]

namespace Loader

/-! ## Acts -/

/-- What is asked of a loader. -/
inductive Act (α : Type) where
  /-- A name gets a factory. -/
  | register (name : String) (product : α)
  /-- The instance of a name is looked up. -/
  | get (name : String)

/-- The name that an act is about. -/
def Act.name : Act α → String
  | .register name _ => name
  | .get name => name

/-- Whether an act is a registration. -/
def Act.registers : Act α → Bool
  | .register .. => true
  | .get _ => false

/-- Whether some acts register a name. -/
def Registers (acts : List (Act α)) (name : String) : Prop :=
  ∃ product, .register name product ∈ acts

variable (loader : Loader α)

/-- What an act comes to. -/
def perform : Act α → Loader α
  | .register name product => loader.register name product
  | .get name => (loader.get name).2

/-- What acts come to, one after another, from a loader without extensions on. -/
def run (capability : String) (acts : List (Act α)) : Loader α :=
  acts.foldl perform (empty capability)

/-- The registration whose factory made a build. -/
def builder? : Nat → Option Nat
  | 0 => none
  | place + 1 => loader.builds.reverse[place]?

/-- The registration whose factory an act calls, if it calls one. -/
def called? : Act α → Option Nat
  | .register .. => none
  | .get name =>
    ((loader.entries.get? name).filter fun entry => entry.build.isNone).map (·.registration)

theorem run_append (capability : String) (acts more : List (Act α)) :
    run capability (acts ++ more) = more.foldl perform (run capability acts) :=
  List.foldl_append

theorem run_concat (capability : String) (acts : List (Act α)) (act : Act α) :
    run capability (acts ++ [act]) = (run capability acts).perform act :=
  List.foldl_append

/-! ## What an act does -/

/-- A lookup fails, finds an instance, or builds one. -/
theorem get_cases (name : String) :
    loader.entries.get? name = none
        ∧ loader.get name = (.error (.noExtension loader.capability name), loader)
      ∨ (∃ entry build, loader.entries.get? name = some entry ∧ entry.build = some build
        ∧ loader.get name = (.ok ⟨entry.product, build⟩, loader))
      ∨ ∃ entry, loader.entries.get? name = some entry ∧ entry.build = none
        ∧ loader.get name = (.ok ⟨entry.product, loader.builds.length + 1⟩,
          { loader with
            entries := loader.entries.insert name (entry.looked (loader.builds.length + 1))
            builds := entry.registration :: loader.builds }) := by
  rw [get]
  cases found : loader.entries.get? name with
  | none => exact .inl ⟨rfl, rfl⟩
  | some entry =>
      dsimp only
      cases built : entry.build with
      | some build => exact .inr (.inl ⟨entry, build, rfl, built, rfl⟩)
      | none =>
          refine .inr (.inr ⟨entry, rfl, built, ?_⟩)
          rw [Entry.looked, built]
          rfl

theorem get_eq_error_iff (name : String) :
    (loader.get name).1 = .error (.noExtension loader.capability name)
      ↔ loader.entries.get? name = none := by
  rcases loader.get_cases name with ⟨none, got⟩ | ⟨entry, _, found, -, got⟩
    | ⟨entry, found, -, got⟩
  · exact iff_of_true (congrArg Prod.fst got) none
  · rw [got, found]
    exact iff_of_false nofun nofun
  · rw [got, found]
    exact iff_of_false nofun nofun

theorem get?_perform (act : Act α) (name : String) :
    (loader.perform act).entries.get? name =
      if name = act.name then
        match act with
        | .register _ product => some ⟨product, loader.registrations + 1, none⟩
        | .get _ => (loader.entries.get? name).map (Entry.looked (loader.builds.length + 1))
      else loader.entries.get? name := by
  cases act with
  | register other product => exact Dictionary.get?_insert ..
  | get other =>
      show (loader.get other).2.entries.get? name = if name = other then _ else _
      rcases loader.get_cases other with ⟨none, got⟩ | ⟨entry, build, found, built, got⟩
        | ⟨entry, found, built, got⟩
      · rw [got]
        split
        · next same => rw [same, none, Option.map_none]
        · rfl
      · rw [got]
        split
        · next same => rw [same, found, Option.map_some, Entry.looked_of_built built]
        · rfl
      · rw [got, Dictionary.get?_insert]
        split
        · next same => rw [same, found, Option.map_some]
        · rfl

theorem get?_register_self (name : String) (product : α) :
    (loader.register name product).entries.get? name
      = some ⟨product, loader.registrations + 1, none⟩ :=
  (Dictionary.get?_insert ..).trans (if_pos rfl)

theorem builds_perform (act : Act α) :
    (loader.perform act).builds = (loader.called? act).toList ++ loader.builds := by
  cases act with
  | register name product => rfl
  | get name =>
      rw [perform, called?]
      rcases loader.get_cases name with ⟨none, got⟩ | ⟨entry, build, found, built, got⟩
        | ⟨entry, found, built, got⟩
      · rw [got, none]
        rfl
      · rw [got, found, Option.filter_some_neg (by simp [built])]
        rfl
      · rw [got, found, Option.filter_some_pos (by simp [built])]
        rfl

theorem registrations_perform (act : Act α) :
    (loader.perform act).registrations = loader.registrations + if act.registers then 1 else 0 := by
  cases act with
  | register name product => rfl
  | get name =>
      rw [perform]
      rcases loader.get_cases name with ⟨-, got⟩ | ⟨_, _, -, -, got⟩ | ⟨_, -, -, got⟩ <;>
        rw [got] <;> rfl

theorem capability_perform (act : Act α) :
    (loader.perform act).capability = loader.capability := by
  cases act with
  | register name product => rfl
  | get name =>
      rw [perform]
      rcases loader.get_cases name with ⟨-, got⟩ | ⟨_, _, -, -, got⟩ | ⟨_, -, -, got⟩ <;> rw [got]

variable {loader}

theorem called?_eq_some_iff {act : Act α} {number : Nat} :
    loader.called? act = some number ↔ ∃ entry, act = .get act.name
      ∧ loader.entries.get? act.name = some entry ∧ entry.build = none
      ∧ entry.registration = number := by
  cases act with
  | register name product => simp [called?, Act.name]
  | get name =>
      simp only [called?, Act.name, true_and, Option.map_eq_some_iff, Option.filter_eq_some_iff,
        Option.isNone_iff_eq_none, and_assoc]

/-- What a name has after an act it had before, was looked up, or has just been registered. -/
theorem get?_perform_cases {act : Act α} {name : String} {entry : Entry α}
    (found : (loader.perform act).entries.get? name = some entry) :
    (loader.entries.get? name = some entry ∧ act.name ≠ name)
      ∨ (∃ old, loader.entries.get? name = some old ∧ act = .get name
        ∧ entry = old.looked (loader.builds.length + 1))
      ∨ ∃ product, act = .register name product
        ∧ entry = ⟨product, loader.registrations + 1, none⟩ := by
  rw [get?_perform] at found
  by_cases same : name = act.name
  · rw [if_pos same] at found
    subst same
    cases act with
    | register name product => exact .inr (.inr ⟨product, rfl, (Option.some.inj found).symm⟩)
    | get name =>
        obtain ⟨old, had, rfl⟩ := Option.map_eq_some_iff.mp found
        exact .inr (.inl ⟨old, had, rfl, rfl⟩)
  · rw [if_neg same] at found
    exact .inl ⟨found, Ne.symm same⟩

/-- An act on another name leaves what a name has. -/
theorem get?_perform_of_ne {act : Act α} {name : String} (other : act.name ≠ name) :
    (loader.perform act).entries.get? name = loader.entries.get? name := by
  rw [get?_perform, if_neg other.symm]

/-- The log is only added to. -/
theorem builder?_perform {build number : Nat} (made : loader.builder? build = some number)
    (act : Act α) : (loader.perform act).builder? build = some number := by
  cases build with
  | zero => exact nomatch made
  | succ place =>
      rw [builder?] at made ⊢
      rw [builds_perform, List.reverse_append,
        List.getElem?_append_left (List.getElem?_eq_some_iff.mp made).1, made]

/-- A build that is made at a lookup has the next number. -/
theorem builder?_perform_called {act : Act α} {number : Nat}
    (called : loader.called? act = some number) :
    (loader.perform act).builder? (loader.builds.length + 1) = some number := by
  rw [builder?, builds_perform, called, Option.toList_some, List.singleton_append,
    List.reverse_cons, ← List.length_reverse, List.getElem?_concat_length]

/-! ## The invariant -/

/-- Entries, registrations and the log of the builds fit each other. -/
structure Sound (loader : Loader α) : Prop where
  numbered : ∀ name entry, loader.entries.get? name = some entry →
    0 < entry.registration ∧ entry.registration ≤ loader.registrations
  /-- No two names have the same registration. -/
  apart : ∀ name other entry entry', loader.entries.get? name = some entry →
    loader.entries.get? other = some entry' → entry.registration = entry'.registration →
    name = other
  /-- An instance was made by the factory of its entry. -/
  built : ∀ name entry build, loader.entries.get? name = some entry → entry.build = some build →
    loader.builder? build = some entry.registration
  /-- A factory without an instance was not called. -/
  unbuilt : ∀ name entry, loader.entries.get? name = some entry → entry.build = none →
    entry.registration ∉ loader.builds
  bounded : ∀ number ∈ loader.builds, 0 < number ∧ number ≤ loader.registrations
  nodup : loader.builds.Nodup

theorem sound_empty (capability : String) : (empty capability : Loader α).Sound where
  numbered := nofun
  apart := nofun
  built := nofun
  unbuilt := nofun
  bounded := nofun
  nodup := .nil

/-- The registration of an entry is the one that it had before an act, or the act itself. -/
theorem registration_perform_cases {act : Act α} {name : String} {entry : Entry α}
    (found : (loader.perform act).entries.get? name = some entry) :
    (∃ old, loader.entries.get? name = some old ∧ entry.registration = old.registration)
      ∨ act.registers = true ∧ act.name = name
        ∧ entry.registration = loader.registrations + 1 := by
  rcases get?_perform_cases found with ⟨same, -⟩ | ⟨old, had, -, rfl⟩ | ⟨product, rfl, rfl⟩
  · exact .inl ⟨entry, same, rfl⟩
  · exact .inl ⟨old, had, rfl⟩
  · exact .inr ⟨rfl, rfl, rfl⟩

theorem le_registrations_perform (loader : Loader α) (act : Act α) :
    loader.registrations ≤ (loader.perform act).registrations := by
  rw [registrations_perform]
  exact Nat.le_add_right ..

/-- An act keeps the invariant. -/
theorem Sound.perform (sound : loader.Sound) (act : Act α) : (loader.perform act).Sound where
  numbered := by
    intro name entry found
    rcases registration_perform_cases found with ⟨old, had, same⟩ | ⟨registers, -, new⟩
    · obtain ⟨positive, bound⟩ := sound.numbered name old had
      rw [same]
      exact ⟨positive, Nat.le_trans bound (loader.le_registrations_perform act)⟩
    · rw [new, registrations_perform, if_pos registers]
      exact ⟨Nat.succ_pos _, Nat.le_refl _⟩
  apart := by
    intro name other entry entry' found found' same
    rcases registration_perform_cases found with ⟨old, had, eq⟩ | ⟨-, named, new⟩ <;>
      rcases registration_perform_cases found' with ⟨old', had', eq'⟩ | ⟨-, named', new'⟩
    · exact sound.apart name other old old' had had' (eq.symm.trans (same.trans eq'))
    · have bound := (sound.numbered name old had).2
      omega
    · have bound := (sound.numbered other old' had').2
      omega
    · exact named.symm.trans named'
  built := by
    intro name entry build found made
    rcases get?_perform_cases found with ⟨had, -⟩ | ⟨old, had, rfl, rfl⟩ | ⟨product, rfl, rfl⟩
    · exact builder?_perform (sound.built name entry build had made) act
    · cases before : old.build with
      | some earlier =>
          rw [Entry.looked_of_built before] at made ⊢
          exact builder?_perform (sound.built name old build had made) _
      | none =>
          rw [Entry.build_looked_of_none before] at made
          obtain rfl := Option.some.inj made
          exact builder?_perform_called (called?_eq_some_iff.mpr ⟨old, rfl, had, before, rfl⟩)
    · exact nomatch made
  unbuilt := by
    intro name entry found none mem
    rw [builds_perform, List.mem_append, Option.mem_toList] at mem
    rcases get?_perform_cases found with ⟨had, other⟩ | ⟨old, had, rfl, rfl⟩ | ⟨product, rfl, rfl⟩
    · rcases mem with called | mem
      · obtain ⟨entry', -, had', -, same⟩ := called?_eq_some_iff.mp called
        exact other (sound.apart act.name name entry' entry had' had same)
      · exact sound.unbuilt name entry had none mem
    · have built := old.isSome_build_looked (loader.builds.length + 1)
      rw [none] at built
      exact nomatch built
    · rcases mem with called | mem
      · exact nomatch called
      · exact absurd (sound.bounded _ mem).2 (Nat.not_succ_le_self _)
  bounded := by
    intro number mem
    have grows := loader.le_registrations_perform act
    rw [builds_perform, List.mem_append, Option.mem_toList] at mem
    rcases mem with called | mem
    · obtain ⟨entry, -, had, -, rfl⟩ := called?_eq_some_iff.mp called
      obtain ⟨positive, bound⟩ := sound.numbered act.name entry had
      exact ⟨positive, Nat.le_trans bound grows⟩
    · obtain ⟨positive, bound⟩ := sound.bounded number mem
      exact ⟨positive, Nat.le_trans bound grows⟩
  nodup := by
    rw [builds_perform]
    cases called : loader.called? act with
    | none => exact sound.nodup
    | some number =>
        obtain ⟨entry, -, had, none, rfl⟩ := called?_eq_some_iff.mp called
        exact List.nodup_cons.mpr ⟨sound.unbuilt act.name entry had none, sound.nodup⟩

theorem Sound.foldl (sound : loader.Sound) (acts : List (Act α)) :
    (acts.foldl Loader.perform loader).Sound := by
  induction acts generalizing loader with
  | nil => exact sound
  | cons act rest ih => exact ih (sound.perform act)

theorem sound_run (capability : String) (acts : List (Act α)) : (run capability acts).Sound :=
  (sound_empty capability).foldl acts

/-! ## Runs -/

theorem capability_run (capability : String) (acts : List (Act α)) :
    (run capability acts).capability = capability := by
  induction acts using List.reverseRecOn with
  | nil => rfl
  | append_singleton acts act ih => rw [run_concat, capability_perform, ih]

theorem registrations_run (capability : String) (acts : List (Act α)) :
    (run capability acts).registrations = acts.countP Act.registers := by
  induction acts using List.reverseRecOn with
  | nil => rfl
  | append_singleton acts act ih =>
      rw [run_concat, registrations_perform, ih, List.countP_append, List.countP_singleton]

/-- The log is only added to. -/
theorem builds_suffix_foldl (loader : Loader α) (acts : List (Act α)) :
    loader.builds <:+ (acts.foldl perform loader).builds := by
  induction acts generalizing loader with
  | nil => exact List.suffix_refl _
  | cons act rest ih =>
      refine List.IsSuffix.trans ?_ (ih (loader.perform act))
      rw [builds_perform]
      exact List.suffix_append ..

/-- A name has an entry if it was registered. -/
theorem get?_run_eq_none_iff (capability : String) (acts : List (Act α)) (name : String) :
    (run capability acts).entries.get? name = none ↔ ¬ Registers acts name := by
  induction acts using List.reverseRecOn with
  | nil => simp [Registers, run, empty]
  | append_singleton acts act ih =>
      have last : Registers (acts ++ [act]) name
          ↔ Registers acts name ∨ ∃ product, act = .register name product := by
        simp only [Registers, List.mem_append, List.mem_singleton, exists_or, eq_comm]
      rw [run_concat, get?_perform, last, not_or, ← ih]
      cases act with
      | register other product =>
          by_cases same : name = other
          · simp [Act.name, same]
          · simp [Act.name, same, Ne.symm same]
      | get other => by_cases same : name = other <;> simp [Act.name, same]

/-- A lookup of a name that has an entry gives the instance of the entry, and the entry keeps it. -/
theorem get_of_get? {name : String} {entry : Entry α}
    (found : loader.entries.get? name = some entry) :
    ∃ build, (loader.get name).1 = .ok ⟨entry.product, build⟩
      ∧ (loader.get name).2.entries.get? name = some { entry with build := some build }
      ∧ (∀ earlier, entry.build = some earlier → build = earlier) := by
  have after : (loader.get name).2.entries.get? name
      = if name = name then (loader.entries.get? name).map (Entry.looked (loader.builds.length + 1))
        else loader.entries.get? name := loader.get?_perform (.get name) name
  rw [if_pos rfl, found, Option.map_some] at after
  rcases loader.get_cases name with ⟨none, -⟩ | ⟨entry', build, found', built, got⟩
    | ⟨entry', found', unbuilt, got⟩
  · exact nomatch found.symm.trans none
  · obtain rfl := Option.some.inj (found.symm.trans found')
    refine ⟨build, congrArg Prod.fst got, ?_, fun earlier had => ?_⟩
    · rw [after, Entry.looked_of_built built, ← built]
    · exact Option.some.inj (built.symm.trans had)
  · obtain rfl := Option.some.inj (found.symm.trans found')
    refine ⟨_, congrArg Prod.fst got, ?_, fun earlier had => nomatch unbuilt.symm.trans had⟩
    rw [after, Entry.looked, unbuilt, Option.none_or]

/-- As long as a name is not registered again, its entry keeps its factory and its instance. -/
theorem kept_foldl {name : String} {entry : Entry α} (found : loader.entries.get? name = some entry)
    {acts : List (Act α)} (none : ¬ Registers acts name) :
    ∃ after, (acts.foldl perform loader).entries.get? name = some after
      ∧ after.product = entry.product ∧ after.registration = entry.registration
      ∧ ∀ build, entry.build = some build → after.build = some build := by
  induction acts generalizing loader entry with
  | nil => exact ⟨entry, found, rfl, rfl, fun _ => id⟩
  | cons act rest ih =>
      have none' : ¬ Registers rest name := fun ⟨product, mem⟩ => none ⟨product, .tail _ mem⟩
      -- the act may only be a lookup, which adds an instance if there is none
      obtain ⟨next, found, product, registration, build⟩ :
          ∃ next, (loader.perform act).entries.get? name = some next
            ∧ next.product = entry.product ∧ next.registration = entry.registration
            ∧ ∀ build, entry.build = some build → next.build = some build := by
        by_cases same : act.name = name
        · cases act with
          | register other product =>
              obtain rfl : other = name := same
              exact absurd ⟨product, .head _⟩ none
          | get other =>
              obtain rfl : other = name := same
              obtain ⟨build, -, after, earlier⟩ := get_of_get? found
              exact ⟨_, after, rfl, rfl, fun build had => congrArg some (earlier build had)⟩
        · exact ⟨entry, (get?_perform_of_ne same).trans found, rfl, rfl, fun _ => id⟩
      obtain ⟨after, found, product', registration', build'⟩ := ih found none'
      exact ⟨after, found, product'.trans product, registration'.trans registration,
        fun number had => build' number (build number had)⟩

/-! ## Which factories are called -/

/-- A factory that was replaced before it was called. -/
structure Retired (loader : Loader α) (number : Nat) : Prop where
  uncalled : number ∉ loader.builds
  old : number ≤ loader.registrations
  gone : ∀ name entry, loader.entries.get? name = some entry → entry.registration ≠ number

theorem Retired.perform {number : Nat} (retired : loader.Retired number) (act : Act α) :
    (loader.perform act).Retired number where
  uncalled := by
    rw [builds_perform, List.mem_append, Option.mem_toList]
    rintro (called | mem)
    · obtain ⟨entry, -, had, -, same⟩ := called?_eq_some_iff.mp called
      exact retired.gone act.name entry had same
    · exact retired.uncalled mem
  old := Nat.le_trans retired.old (loader.le_registrations_perform act)
  gone := by
    intro name entry found same
    rcases registration_perform_cases found with ⟨old, had, eq⟩ | ⟨-, -, new⟩
    · exact retired.gone name old had (eq.symm.trans same)
    · have bound := retired.old
      omega

/-- Nothing calls a factory that was replaced. -/
theorem Retired.not_mem_builds {number : Nat} (retired : loader.Retired number)
    (acts : List (Act α)) : number ∉ (acts.foldl Loader.perform loader).builds := by
  induction acts generalizing loader with
  | nil => exact retired.uncalled
  | cons act rest ih => exact ih (retired.perform act)

/-- A factory that was not called yet is called exactly if the next act on its name is a lookup. -/
theorem Sound.mem_builds_iff (sound : loader.Sound) {name : String} {entry : Entry α}
    (found : loader.entries.get? name = some entry) (unbuilt : entry.build = none)
    (acts : List (Act α)) :
    entry.registration ∈ (acts.foldl Loader.perform loader).builds
      ↔ acts.find? (·.name = name) = some (.get name) := by
  induction acts generalizing loader with
  | nil => exact iff_of_false (sound.unbuilt name entry found unbuilt) nofun
  | cons act rest ih =>
      rw [List.foldl_cons]
      by_cases same : act.name = name
      · rw [List.find?_cons_of_pos (by simpa using same)]
        cases act with
        | register other product =>
            obtain rfl : other = name := same
            refine iff_of_false (Retired.not_mem_builds ⟨?_, ?_, ?_⟩ rest) nofun
            · exact sound.unbuilt other entry found unbuilt
            · exact Nat.le_succ_of_le (sound.numbered other entry found).2
            · intro name' entry' found' eq
              rcases registration_perform_cases found' with ⟨old, had, eq'⟩ | ⟨-, -, new⟩
              · -- of the old entries only that of the name has the number, and it is replaced
                obtain rfl := sound.apart name' other old entry had found (eq'.symm.trans eq)
                rw [Loader.perform, get?_register_self] at found'
                obtain rfl := Option.some.inj found'
                have bound := (sound.numbered name' entry found).2
                have eq : loader.registrations + 1 = entry.registration := eq
                omega
              · have bound := (sound.numbered other entry found).2
                omega
        | get other =>
            obtain rfl : other = name := same
            refine iff_of_true ((builds_suffix_foldl _ rest).subset ?_) rfl
            have called : loader.called? (.get other) = some entry.registration :=
              called?_eq_some_iff.mpr ⟨entry, rfl, found, unbuilt, rfl⟩
            rw [builds_perform, called]
            exact List.mem_append_left _ (.head _)
      · rw [List.find?_cons_of_neg (by simpa using same)]
        exact ih (sound.perform act) ((get?_perform_of_ne same).trans found)

end Loader

/-! ## Factories and instances in a table each -/

/-- A factory, by what it makes and the number of its registration. -/
structure Factory (α : Type) where
  product : α
  registration : Nat

/-- The extensions of a capability, where a lookup first looks among the instances that there are
and then for a factory. -/
structure Tables (α : Type) where
  capability : String
  factories : Dictionary (Factory α)
  instances : Dictionary (Instance α)
  registrations : Nat
  /-- The registrations of the builds, the latest build first. -/
  builds : List Nat

namespace Tables

/-- The tables without extensions. -/
def empty (capability : String) : Tables α :=
  ⟨capability, .empty, .empty, 0, []⟩

variable (tables : Tables α)

/-- Replaces the factory of a name and drops its instance. -/
def register (name : String) (product : α) : Tables α :=
  { tables with
    factories := tables.factories.insert name ⟨product, tables.registrations + 1⟩
    instances := tables.instances.erase name
    registrations := tables.registrations + 1 }

/-- Has a factory build the instance of a name. -/
def build (name : String) (factory : Factory α) : Instance α × Tables α :=
  let inst : Instance α := ⟨factory.product, tables.builds.length + 1⟩
  (inst,
    { tables with
      instances := tables.instances.insert name inst
      builds := factory.registration :: tables.builds })

/-- The instance of a name, which is built if need be. -/
def get (name : String) : Except Fault (Instance α) × Tables α :=
  match tables.instances.get? name with
  | some inst => (.ok inst, tables)
  | none =>
    match tables.factories.get? name with
    | none => (.error (.noExtension tables.capability name), tables)
    | some factory =>
      let (inst, tables) := tables.build name factory
      (.ok inst, tables)

/-- What an act comes to. -/
def perform : Loader.Act α → Tables α
  | .register name product => tables.register name product
  | .get name => (tables.get name).2

/-- What acts come to, one after another. -/
def run (capability : String) (acts : List (Loader.Act α)) : Tables α :=
  acts.foldl perform (empty capability)

/-- The entries of a loader are the factories, each with the instance of its name. -/
structure InStep (tables : Tables α) (loader : Loader α) : Prop where
  capability : loader.capability = tables.capability
  registrations : loader.registrations = tables.registrations
  builds : loader.builds = tables.builds
  entries : ∀ name, loader.entries.get? name = (tables.factories.get? name).map fun factory =>
    ⟨factory.product, factory.registration, (tables.instances.get? name).map (·.build)⟩
  /-- An instance stands beside the factory that made it. -/
  made : ∀ name inst, tables.instances.get? name = some inst →
    ∃ factory, tables.factories.get? name = some factory ∧ factory.product = inst.value

variable {tables} {loader : Loader α}

/-- Building an instance for an entry without one. -/
theorem InStep.build (step : tables.InStep loader) {name : String} {factory : Factory α}
    (found : tables.factories.get? name = some factory) {entry : Entry α}
    (same : entry = ⟨factory.product, factory.registration, none⟩) :
    (tables.build name factory).2.InStep
      { loader with
        entries := loader.entries.insert name (entry.looked (loader.builds.length + 1))
        builds := entry.registration :: loader.builds } where
  capability := step.capability
  registrations := step.registrations
  builds := by
    rw [same, step.builds]
    rfl
  entries := by
    intro other
    rw [Dictionary.get?_insert, Tables.build, Dictionary.get?_insert]
    by_cases own : other = name
    · rw [if_pos own, if_pos own, own, found, same, step.builds]
      rfl
    · rw [if_neg own, if_neg own, step.entries other]
  made := by
    intro other inst had
    rw [Tables.build, Dictionary.get?_insert] at had
    by_cases own : other = name
    · rw [if_pos own] at had
      obtain rfl := Option.some.inj had
      exact ⟨factory, own ▸ found, rfl⟩
    · rw [if_neg own] at had
      exact step.made other inst had

/-- Tables that are in step with a loader give what it gives, and stay in step. -/
theorem InStep.get (step : tables.InStep loader) (name : String) :
    (tables.get name).1 = (loader.get name).1
      ∧ (tables.get name).2.InStep (loader.get name).2 := by
  have entry := step.entries name
  rw [Tables.get]
  rcases loader.get_cases name with ⟨unknown, got⟩ | ⟨e, build, found, built, got⟩
    | ⟨e, found, unbuilt, got⟩
  · rw [unknown, eq_comm, Option.map_eq_none_iff] at entry
    have uncached : tables.instances.get? name = none :=
      Option.eq_none_iff_forall_ne_some.mpr fun inst had => by
        obtain ⟨factory, found, -⟩ := step.made name inst had
        exact nomatch entry.symm.trans found
    rw [uncached, entry, got, step.capability]
    exact ⟨rfl, step⟩
  · rw [found, eq_comm, Option.map_eq_some_iff] at entry
    obtain ⟨factory, had, rfl⟩ := entry
    obtain ⟨inst, cached, rfl⟩ := Option.map_eq_some_iff.mp built
    obtain ⟨factory', had', product⟩ := step.made name inst cached
    obtain rfl := Option.some.inj (had.symm.trans had')
    rw [cached, got, product]
    exact ⟨rfl, step⟩
  · rw [found, eq_comm, Option.map_eq_some_iff] at entry
    obtain ⟨factory, had, same⟩ := entry
    have uncached : tables.instances.get? name = none := by
      rw [← same] at unbuilt
      exact Option.map_eq_none_iff.mp unbuilt
    rw [uncached, Option.map_none] at same
    rw [uncached, had, got]
    refine ⟨?_, step.build had same.symm⟩
    rw [← same, step.builds]
    rfl

theorem InStep.register (step : tables.InStep loader) (name : String) (product : α) :
    (tables.register name product).InStep (loader.register name product) where
  capability := step.capability
  registrations := congrArg (· + 1) step.registrations
  builds := step.builds
  entries := by
    intro other
    show (loader.entries.insert name _).get? other
      = ((tables.factories.insert name _).get? other).map fun factory => ⟨factory.product,
        factory.registration, ((tables.instances.erase name).get? other).map (·.build)⟩
    rw [Dictionary.get?_insert, Dictionary.get?_insert, Dictionary.get?_erase]
    by_cases same : other = name
    · rw [if_pos same, if_pos same, if_pos same, step.registrations]
      rfl
    · rw [if_neg same, if_neg same, if_neg same, step.entries other]
  made := by
    intro other inst had
    have had : (tables.instances.erase name).get? other = some inst := had
    rw [Dictionary.get?_erase, Option.ite_none_left_eq_some] at had
    obtain ⟨apart, had⟩ := had
    obtain ⟨factory, found, made⟩ := step.made other inst had
    refine ⟨factory, ?_, made⟩
    show (tables.factories.insert name _).get? other = _
    rw [Dictionary.get?_insert, if_neg apart, found]

theorem inStep_run (capability : String) (acts : List (Loader.Act α)) :
    (run capability acts).InStep (Loader.run capability acts) := by
  induction acts using List.reverseRecOn with
  | nil => exact ⟨rfl, rfl, rfl, fun _ => rfl, nofun⟩
  | append_singleton acts act ih =>
      rw [Loader.run_concat, run, List.foldl_append]
      cases act with
      | register name product => exact ih.register name product
      | get name => exact (ih.get name).2

end Tables

namespace Loader

/-- What the lookups of a loader give, and which factories were called, after some acts. -/
structure Follows (capability : String) (acts : List (Act α)) (loader : Loader α) : Prop where
  /-- A name has no instance exactly if it was never registered. -/
  fails_iff : ∀ name, (loader.get name).1 = .error (.noExtension capability name)
    ↔ ¬ Registers acts name
  /-- Else its instance was made by the factory that was registered last. -/
  latest : ∀ before name product since, acts = before ++ .register name product :: since →
    ¬ Registers since name → ∃ build, (loader.get name).1 = .ok ⟨product, build⟩
      ∧ (loader.get name).2.builder? build = some (before.countP Act.registers + 1)
  /-- Until a name is registered again, all its lookups give one instance. -/
  shared : ∀ before name since inst, acts = before ++ .get name :: since →
    ¬ Registers since name → ((run capability before).get name).1 = .ok inst →
    (loader.get name).1 = .ok inst
  /-- A factory is called exactly if the next act on its name is a lookup: this one calls it. -/
  called_iff : ∀ before name product after, acts = before ++ .register name product :: after →
    (before.countP Act.registers + 1 ∈ loader.builds
      ↔ after.find? (·.name = name) = some (.get name))
  called_once : loader.builds.Nodup
  called_bound : ∀ number ∈ loader.builds, 0 < number ∧ number ≤ acts.countP Act.registers
  /-- An act adds at most one build to the log. -/
  grows : ∀ act, ∃ call : Option Nat, (loader.perform act).builds = call.toList ++ loader.builds
  /-- An act on one name leaves the factories and the instances of the others, and calls none of
  these factories. -/
  frame : ∀ act name, act.name ≠ name →
    (loader.perform act).entries.get? name = loader.entries.get? name
      ∧ ∀ entry, loader.entries.get? name = some entry →
        (entry.registration ∈ (loader.perform act).builds ↔ entry.registration ∈ loader.builds)
  increasing_names : loader.names.Pairwise (· < ·)
  mem_names_iff : ∀ name, name ∈ loader.names ↔ Registers acts name
  /-- Nothing changes if the instances are kept in a table beside that of the factories. -/
  tables : ∀ name, ((Tables.run capability acts).get name).1 = (loader.get name).1

/-- However names are registered and looked up: a lookup gives what the factory registered last for
the name made, each factory is called at most once, by the first lookup after its registration, and
no name has to do with another. -/
theorem follows_of_run (capability : String) (acts : List (Act α)) :
    Follows capability acts (run capability acts) := by
  have sound := sound_run capability acts
  have registered (name : String) :
      (run capability acts).entries.get? name = none ↔ ¬ Registers acts name :=
    get?_run_eq_none_iff capability acts name
  -- the entry that a registration makes
  have entry (before : List (Act α)) (name : String) (product : α) :
      ((run capability before).register name product).entries.get? name
        = some ⟨product, before.countP Act.registers + 1, none⟩ := by
    rw [← registrations_run capability before, get?_register_self]
  refine
    { fails_iff := fun name => ?fails_iff
      latest := ?latest
      shared := ?shared
      called_iff := ?called_iff
      called_once := sound.nodup
      called_bound := fun number mem => ?called_bound
      grows := fun act => ⟨_, builds_perform _ act⟩
      frame := fun act name other => ⟨get?_perform_of_ne other, fun entry found => ?frame⟩
      increasing_names := List.pairwise_map.mpr (run capability acts).entries.increasing
      mem_names_iff := fun name => ?mem_names_iff
      tables := fun name => ((Tables.inStep_run capability acts).get name).1 }
  case fails_iff =>
    have fails := (run capability acts).get_eq_error_iff name
    rw [capability_run] at fails
    exact fails.trans (registered name)
  case latest =>
    rintro before name product since rfl last
    rw [run_append, List.foldl_cons] at sound ⊢
    obtain ⟨after, found, same, registration, -⟩ := kept_foldl (entry before name product) last
    obtain ⟨build, got, kept, -⟩ := get_of_get? found
    rw [same] at got
    have made := (sound.perform (.get name)).built name _ build kept rfl
    exact ⟨build, got, made.trans (congrArg some registration)⟩
  case shared =>
    rintro before name since inst rfl last got
    rw [run_append, List.foldl_cons]
    rcases found : (run capability before).entries.get? name with _ | entry
    · rcases (run capability before).get_cases name with ⟨-, got'⟩ | ⟨_, _, found', -⟩
        | ⟨_, found', -⟩
      · rw [got'] at got
        exact nomatch got
      · exact nomatch found.symm.trans found'
      · exact nomatch found.symm.trans found'
    · obtain ⟨build, given, kept, -⟩ := get_of_get? found
      obtain rfl := Except.ok.inj (given.symm.trans got)
      obtain ⟨after, found, product, -, same⟩ := kept_foldl kept last
      obtain ⟨build', given', -, earlier⟩ := get_of_get? found
      rw [earlier build (same build rfl), product] at given'
      exact given'
  case called_iff =>
    rintro before name product after rfl
    rw [run_append, List.foldl_cons]
    exact ((sound_run capability before).perform (.register name product)).mem_builds_iff
      (entry before name product) rfl after
  case called_bound =>
    have bound := sound.bounded number mem
    rw [registrations_run] at bound
    exact bound
  case frame =>
    rw [builds_perform, List.mem_append, Option.mem_toList, or_iff_right]
    intro called
    obtain ⟨entry', -, found', -, same⟩ := called?_eq_some_iff.mp called
    exact other (sound.apart act.name name entry' entry found' found same)
  case mem_names_iff =>
    rw [← not_iff_not, ← registered, names, Dictionary.mem_keys_iff, Dictionary.contains]
    cases (run capability acts).entries.get? name <;> simp

end Loader

end RemoteCall.Extension
