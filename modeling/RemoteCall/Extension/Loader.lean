import RemoteCall.Dictionary
import RemoteCall.Fault

/-!
# Extensions by name

A loader knows the extensions of one capability. Registering a name gives it a factory; the first
lookup after that builds an instance, which later lookups share until the name is registered again.

Registrations and builds are numbered from one, so that two instances are the same exactly when their
builds are; `builds` lists the registration of each build.
-/

namespace RemoteCall.Extension

/-- What a name is registered for. -/
structure Entry (α : Type) where
  /-- What the factory makes. -/
  product : α
  /-- The number of the registration. -/
  registration : Nat
  /-- The number of the build that made the instance, where there is one. -/
  build : Option Nat

/-- An instance with the number of its build. -/
structure Instance (α : Type) where
  value : α
  build : Nat

/-- The extensions of a capability. -/
structure Loader (α : Type) where
  capability : String
  entries : Dictionary (Entry α)
  /-- How many registrations there were. -/
  registrations : Nat
  /-- The registrations of the builds, the latest build first. -/
  builds : List Nat

namespace Loader

variable {α : Type}

/-- The loader without extensions. -/
def empty (capability : String) : Loader α :=
  ⟨capability, .empty, 0, []⟩

/-- The loader in which a name has another factory and no instance. -/
def register (loader : Loader α) (name : String) (product : α) : Loader α :=
  let registration := loader.registrations + 1
  { loader with
    entries := loader.entries.insert name ⟨product, registration, none⟩
    registrations := registration }

/-- The loader after registering several names. -/
def registerAll (loader : Loader α) (extensions : List (String × α)) : Loader α :=
  extensions.foldl (fun loader extension => loader.register extension.1 extension.2) loader

/-- The instance of a name, which is built if need be. -/
def get (loader : Loader α) (name : String) : Except Fault (Instance α) × Loader α :=
  match loader.entries.get? name with
  | none => (.error (.noExtension loader.capability name), loader)
  | some entry =>
    match entry.build with
    | some build => (.ok ⟨entry.product, build⟩, loader)
    | none =>
      let build := loader.builds.length + 1
      (.ok ⟨entry.product, build⟩,
        { loader with
          entries := loader.entries.insert name { entry with build := some build }
          builds := entry.registration :: loader.builds })

/-- What an instance of a name does. -/
def value (loader : Loader α) (name : String) : Except Fault α :=
  match loader.entries.get? name with
  | none => .error (.noExtension loader.capability name)
  | some entry => .ok entry.product

/-- A lookup gives what the registered factory makes. -/
theorem value_eq_get (loader : Loader α) (name : String) :
    loader.value name = (loader.get name).1.map Instance.value := by
  unfold value get
  split
  · simp_all [Except.map]
  · split <;> simp_all [Except.map]

/-- Of a name that is registered again, the last factory counts. -/
theorem value_register (loader : Loader α) (name other : String) (product : α) :
    (loader.register name product).value other
      = if other = name then .ok product else loader.value other := by
  simp only [value, register, Dictionary.get?_insert]
  by_cases same : other = name
  · rw [if_pos same, if_pos same]
  · rw [if_neg same, if_neg same]

/-- Whether a name is registered. -/
def contains (loader : Loader α) (name : String) : Bool :=
  loader.entries.contains name

/-- The registered names in increasing order. -/
def names (loader : Loader α) : List String :=
  loader.entries.keys

end Loader

end RemoteCall.Extension
