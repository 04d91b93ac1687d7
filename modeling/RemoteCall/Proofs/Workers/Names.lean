import Mathlib.Data.List.Dedup
import RemoteCall.Proofs.Dictionary
import RemoteCall.Proofs.Workers.Promises
import RemoteCall.Workers.Registry

/-! # What pools by name promise

    Who asks for a name gets a pool of this name that is not shut down, and
    the same one again until its shutdown has begun (`Registry.Promises`).  In
    between, the pools may take any steps.  This rests on two facts that every
    act keeps (`Registry.Known`): a name stands for a pool of that name, and a
    pool that is not shut down is the one that its name stands for. -/

namespace RemoteCall.Workers

namespace Registry

/-- What can happen. -/
inductive Act where
  /-- The pool of a name is asked for. -/
  | getOrCreate (name : String) (size : Nat)
  /-- A pool takes a step. -/
  | within (number : Nat) (step : Pool.Step)

/-- The name that is asked for. -/
def Act.name? : Act → Option String
  | .getOrCreate name _ => some name
  | .within .. => none

/-- Lets something happen. -/
def perform (registry : Registry) : Act → Registry
  | .getOrCreate name size => (registry.getOrCreate name size).2
  | .within number step => (registry.step number (·.perform step)).2

/-- Lets things happen one after another. -/
def run (registry : Registry) (acts : List Act) : Registry :=
  acts.foldl perform registry

variable {registry : Registry}

/-! ## Names -/

/-- A name stands for a pool of that name, and a pool that is not shut down is the one that its name
stands for. -/
structure Known (registry : Registry) : Prop where
  named : ∀ name number, registry.current.get? name = some number →
    ∃ pool, registry.pool? number = some pool ∧ pool.name = name
  alone : ∀ number pool, registry.pool? number = some pool → pool.isShutDown = false →
    registry.current.get? pool.name = some number

theorem known_empty : empty.Known :=
  ⟨fun _ _ found => (nomatch found), fun _ _ found => nomatch found⟩

/-- A name stands for a pool that is not shut down, which is given out, or a pool is made. -/
theorem Known.getOrCreate_eq (known : registry.Known) (name : String) (size : Nat) :
    (∃ number pool, registry.pool? number = some pool ∧ pool.name = name
        ∧ pool.isShutDown = false ∧ registry.getOrCreate name size = (number, registry))
      ∨ (∀ number pool, registry.pool? number = some pool → pool.name = name →
          pool.isShutDown = true)
        ∧ registry.getOrCreate name size = registry.create name size := by
  cases current : registry.current.get? name with
  | none =>
      refine .inr ⟨fun number pool found named => ?_, by rw [getOrCreate, current]⟩
      refine eq_true_of_ne_false fun notShut => ?_
      have own := known.alone number pool found notShut
      rw [named, current] at own
      exact nomatch own
  | some number =>
      obtain ⟨pool, found, named⟩ := known.named name number current
      cases shut : pool.isShutDown with
      | false =>
          refine .inl ⟨number, pool, found, named, shut, ?_⟩
          simp [getOrCreate, current, found, shut]
      | true =>
          have made : registry.getOrCreate name size = registry.create name size := by
            simp [getOrCreate, current, found, shut]
          refine .inr ⟨fun other pool' found' named' => ?_, made⟩
          refine eq_true_of_ne_false fun notShut => ?_
          have same := current.symm.trans (named' ▸ known.alone other pool' found' notShut)
          obtain rfl := Option.some.inj same
          obtain rfl := Option.some.inj (found.symm.trans found')
          exact nomatch shut.symm.trans notShut

theorem pool?_create (registry : Registry) (name : String) (size number : Nat) :
    (registry.create name size).2.pool? number
      = if number = registry.pools.size then some (.ofSize name size) else registry.pool? number :=
  Array.getElem?_push ..

theorem Known.create (known : registry.Known) {name : String}
    (shut : ∀ number pool, registry.pool? number = some pool → pool.name = name →
      pool.isShutDown = true) (size : Nat) : (registry.create name size).2.Known := by
  constructor
  · intro other number current
    rw [pool?_create]
    have current : (registry.current.insert name registry.pools.size).get? other
        = some number := current
    rw [Dictionary.get?_insert] at current
    split at current
    · next same =>
        rw [if_pos (Option.some.inj current).symm]
        exact ⟨_, rfl, same.symm⟩
    · obtain ⟨pool, found, named⟩ := known.named other number current
      have less := (Array.getElem?_eq_some_iff.mp found).1
      rw [if_neg (Nat.ne_of_lt less)]
      exact ⟨pool, found, named⟩
  · intro number pool found notShut
    show (registry.current.insert name registry.pools.size).get? pool.name = some number
    rw [Dictionary.get?_insert]
    rw [pool?_create] at found
    split at found
    · next same =>
        obtain rfl := Option.some.inj found
        exact (if_pos rfl).trans (congrArg some same.symm)
    · rw [if_neg fun named => ?_]
      · exact known.alone number pool found notShut
      · exact nomatch notShut.symm.trans (shut number pool found named)

theorem pool?_within (registry : Registry) (number other : Nat) (step : Pool.Step) :
    (registry.perform (.within number step)).pool? other
      = (registry.pool? other).map fun pool =>
        if number = other then (pool.perform step).2 else pool := by
  rw [perform, Registry.step]
  cases found : registry.pool? number with
  | none =>
      by_cases same : number = other
      · subst same
        simp [found]
      · simp [same]
  | some pool =>
      show (registry.pools.setIfInBounds number _)[other]? = _
      rw [Array.getElem?_setIfInBounds]
      by_cases same : number = other
      · subst same
        have less := (Array.getElem?_eq_some_iff.mp found).1
        rw [found, Option.map_some]
        simp [less]
      · simp [same, pool?]

theorem current_within (registry : Registry) (number : Nat) (step : Pool.Step) :
    (registry.perform (.within number step)).current = registry.current := by
  rw [perform, Registry.step]
  split <;> rfl

theorem Known.perform (known : registry.Known) (act : Act) : (registry.perform act).Known := by
  cases act with
  | getOrCreate name size =>
      rcases known.getOrCreate_eq name size with ⟨number, pool, -, -, -, same⟩ | ⟨shut, same⟩
      · rw [Registry.perform, same]
        exact known
      · rw [Registry.perform, same]
        exact known.create shut size
  | within number step =>
      constructor
      · intro name other current
        rw [current_within] at current
        obtain ⟨pool, found, named⟩ := known.named name other current
        rw [pool?_within, found]
        refine ⟨_, rfl, ?_⟩
        split
        · exact (Pool.name_perform pool step).trans named
        · exact named
      · intro other pool found notShut
        rw [current_within]
        rw [pool?_within] at found
        obtain ⟨before, old, rfl⟩ := Option.map_eq_some_iff.mp found
        split at notShut
        · next same =>
            rw [Pool.isShutDown_perform] at notShut
            rw [if_pos same, Pool.name_perform]
            exact known.alone other before old (Bool.or_eq_false_iff.mp notShut).1
        · next apart =>
            rw [if_neg apart]
            exact known.alone other before old notShut

theorem Known.run (known : registry.Known) (acts : List Act) : (registry.run acts).Known := by
  induction acts generalizing registry with
  | nil => exact known
  | cons act acts ih => exact ih (known.perform act)

/-! ## Pools -/

theorem getOrCreate_snd (registry : Registry) (name : String) (size : Nat) :
    registry.current.contains name = true ∧ (registry.getOrCreate name size).2 = registry
      ∨ (registry.getOrCreate name size).2 = (registry.create name size).2 := by
  rw [getOrCreate]
  split
  · exact .inr rfl
  · next current =>
      split
      · split
        · exact .inr rfl
        · exact .inl ⟨by simp [Dictionary.contains, current], rfl⟩
      · exact .inr rfl

/-- A pool keeps its name, and is shut down once it was or its shutdown has begun. -/
theorem pool?_perform (act : Act) {number : Nat} {pool : Pool}
    (found : registry.pool? number = some pool) :
    ∃ after, (registry.perform act).pool? number = some after ∧ after.name = pool.name
      ∧ (after.isShutDown = true ↔ pool.isShutDown = true ∨ act = .within number .announce) := by
  cases act with
  | getOrCreate name size =>
      refine ⟨pool, ?_, rfl, by simp⟩
      have less := (Array.getElem?_eq_some_iff.mp found).1
      rw [perform]
      rcases registry.getOrCreate_snd name size with ⟨-, same⟩ | same <;> rw [same]
      · exact found
      · rw [pool?_create, if_neg (Nat.ne_of_lt less)]
        exact found
  | within other step =>
      rw [pool?_within, found]
      refine ⟨_, rfl, ?_⟩
      split
      · next same => simp [Pool.name_perform, Pool.isShutDown_perform, same]
      · next apart => simp [apart]

theorem pool?_run (acts : List Act) {number : Nat} {pool : Pool}
    (found : registry.pool? number = some pool) :
    ∃ after, (registry.run acts).pool? number = some after ∧ after.name = pool.name
      ∧ (after.isShutDown = true ↔ pool.isShutDown = true ∨ .within number .announce ∈ acts) := by
  induction acts generalizing registry pool with
  | nil => exact ⟨pool, found, rfl, by simp⟩
  | cons act acts ih =>
      obtain ⟨next, found, named, shut⟩ := pool?_perform act found
      obtain ⟨after, found, named', shut'⟩ := ih found
      refine ⟨after, found, named'.trans named, ?_⟩
      rw [shut', shut, List.mem_cons, or_assoc, eq_comm (a := act)]

/-! ## How many names there are -/

/-- A name stands for a pool as soon as it is asked for. -/
theorem contains_perform (act : Act) (name : String) :
    (registry.perform act).current.contains name = true
      ↔ registry.current.contains name = true ∨ act.name? = some name := by
  cases act with
  | getOrCreate own size =>
      rw [perform]
      rcases registry.getOrCreate_snd own size with ⟨there, same⟩ | same <;> rw [same]
      · refine ⟨.inl, fun either => either.elim id fun asked => ?_⟩
        obtain rfl := Option.some.inj asked
        exact there
      · show (registry.current.insert own _).contains name = true ↔ _
        rw [Dictionary.contains, Dictionary.get?_insert]
        split
        · next same => simp [Act.name?, same]
        · next other => simp [Dictionary.contains, Act.name?, Ne.symm other]
  | within number step =>
      rw [current_within]
      simp [Act.name?]

theorem contains_run (acts : List Act) (name : String) :
    (registry.run acts).current.contains name = true
      ↔ registry.current.contains name = true ∨ name ∈ acts.filterMap Act.name? := by
  induction acts generalizing registry with
  | nil => simp [run]
  | cons act acts ih =>
      have rest := @ih (registry.perform act)
      rw [contains_perform, or_assoc] at rest
      refine rest.trans (or_congr_right ?_)
      cases asked : act.name? <;> simp [asked, eq_comm]

/-- There are as many names that stand for a pool as names were asked for. -/
theorem size_run (acts : List Act) :
    (empty.run acts).size = (acts.filterMap Act.name?).dedup.length := by
  rw [size, Dictionary.size, ← List.length_map (·.1)]
  have nodup := Dictionary.nodup_keys (empty.run acts).current
  refine ((List.perm_ext_iff_of_nodup nodup (List.nodup_dedup _)).mpr fun name => ?_).length_eq
  rw [Dictionary.mem_keys_iff, contains_run, List.mem_dedup]
  exact or_iff_right Bool.false_ne_true

/-! ## Promises -/

/-- What pools by name promise at each moment, if some names were asked for. -/
structure Promises (registry : Registry) (asked : List String) : Prop where
  /-- Who asks for a name gets a pool of that name that is not shut down. -/
  gives : ∀ name size, ∃ pool, (registry.getOrCreate name size).2.pool?
      (registry.getOrCreate name size).1 = some pool ∧ pool.name = name ∧ pool.isShutDown = false
  /-- Whatever happens until the name is asked for again, it is the same pool if no shutdown of it
  has begun, and another one otherwise. -/
  again : ∀ name size later size',
    let given := registry.getOrCreate name size
    let after := given.2.run later
    (.within given.1 .announce ∉ later → after.getOrCreate name size' = (given.1, after))
      ∧ (.within given.1 .announce ∈ later → (after.getOrCreate name size').1 ≠ given.1)
  /-- A name stands for one pool, which has this name. -/
  named : ∀ name number, registry.current.get? name = some number →
    ∃ pool, registry.pool? number = some pool ∧ pool.name = name
  /-- All other pools of that name are shut down. -/
  alone : ∀ number pool, registry.pool? number = some pool → pool.isShutDown = false →
    registry.current.get? pool.name = some number
  /-- There are as many names that stand for a pool as names were asked for. -/
  counted : registry.size = asked.dedup.length

/-- What is given out is a pool of the name that is not shut down. -/
theorem Known.exists_pool (known : registry.Known) (name : String) (size : Nat) :
    ∃ pool, (registry.getOrCreate name size).2.pool? (registry.getOrCreate name size).1 = some pool
      ∧ pool.name = name ∧ pool.isShutDown = false := by
  rcases known.getOrCreate_eq name size with ⟨number, pool, found, named, notShut, same⟩ | ⟨-, same⟩
  · rw [same]
    exact ⟨pool, found, named, notShut⟩
  · rw [same]
    exact ⟨.ofSize name size, (pool?_create ..).trans (if_pos rfl), rfl, rfl⟩

/-- A pool that is not shut down is what its name is given. -/
theorem Known.getOrCreate_of_open (known : registry.Known) {number : Nat} {pool : Pool}
    (found : registry.pool? number = some pool) (notShut : pool.isShutDown = false) (size : Nat) :
    registry.getOrCreate pool.name size = (number, registry) := by
  rw [getOrCreate, known.alone number pool found notShut]
  simp [found, notShut]

/-- Pools by name keep their promises. -/
theorem promises_run (acts : List Act) :
    (empty.run acts).Promises (acts.filterMap Act.name?) where
  gives name size := (known_empty.run acts).exists_pool name size
  again name size later size' := by
    have known := known_empty.run acts
    generalize empty.run acts = registry at known ⊢
    intro given after
    obtain ⟨pool, found, named, notShut⟩ := known.exists_pool name size
    have known' : after.Known := (known.perform (.getOrCreate name size)).run later
    obtain ⟨now, found', named', shut⟩ := pool?_run later found
    constructor
    · intro quiet
      have isOpen : now.isShutDown = false := by
        refine eq_false_of_ne_true fun is => ?_
        rcases shut.mp is with was | began
        · exact nomatch notShut.symm.trans was
        · exact quiet began
      have again := known'.getOrCreate_of_open found' isOpen size'
      rwa [named', named] at again
    · intro began same
      obtain ⟨other, given, -, isOpen⟩ := known'.exists_pool name size'
      obtain ⟨same', kept, -, shut'⟩ := pool?_perform (.getOrCreate name size') found'
      rw [same] at given
      obtain rfl := Option.some.inj (kept.symm.trans given)
      exact nomatch isOpen.symm.trans (shut'.mpr (.inl (shut.mpr (.inr began))))
  named := (known_empty.run acts).named
  alone := (known_empty.run acts).alone
  counted := size_run acts

end Registry

/-- Pools keep their promises in every run of calls, and so do pools by name. -/
theorem promises_kept :
    (∀ name size acts, ((SharedPool.start name size).run acts).Promises name size)
      ∧ ∀ acts, (Registry.empty.run acts).Promises (acts.filterMap Registry.Act.name?) :=
  ⟨SharedPool.promises_run, Registry.promises_run⟩

end RemoteCall.Workers
