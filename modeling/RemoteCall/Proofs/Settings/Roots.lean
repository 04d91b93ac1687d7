import RemoteCall.Context
import RemoteCall.Proofs.Directory.Registrations

/-! # Roots that settings allow

    A root that passes validation begins with a slash and ends in none, unless
    it is the lone slash.  So the path of a service is that which stands under
    the root with the key of the service as its name (`servicePath_eq_below`),
    and the path of an address stands under that one.  Both are paths of the
    store exactly if the root has no two slashes side by side
    (`isPath_below_below_iff`), of which validation says nothing.

    In a context over an empty store, a root without such a gap lets every
    address be registered and looked up, and one with a gap lets none
    (`register_of_valid`, `refuses_valid_root`). -/

namespace RemoteCall

open Directory Directory.Path

/-! ## Paths under a root -/

namespace Directory.Path

/-- Whether a text begins with a slash and does not end in one unless it is the lone slash. -/
def IsRoot (root : String) : Prop :=
  root.toList.head? = some '/' ∧ (root ≠ "/" → root.toList.getLast? ≠ some '/')

/-- Whether a text has two slashes side by side. -/
def HasGap (text : String) : Prop :=
  ['/', '/'] <:+: text.toList

theorem isPath_iff (path : String) : IsPath path ↔ IsRoot path ∧ ¬ HasGap path := by
  rw [IsPath, IsRoot, HasGap]
  tauto

variable {root key name : String}

/-- The path of a service stands under the root. -/
theorem servicePath_eq_below (isRoot : IsRoot root) (key : String) :
    withoutTail root ++ "/" ++ key = below root key := by
  rw [below]
  by_cases lone : root = "/"
  · rw [if_pos lone, lone, show withoutTail "/" = "" from rfl, String.empty_append]
  · rw [if_neg lone]
    have kept : root.toList.reverse.dropWhile (· = '/') = root.toList.reverse := by
      cases reversed : root.toList.reverse with
      | nil => rfl
      | cons c rest =>
          refine List.dropWhile_cons_of_neg fun slash => isRoot.2 lone ?_
          rw [← List.head?_reverse, reversed, of_decide_eq_true slash]
          rfl
    rw [withoutTail, kept, List.reverse_reverse, String.ofList_toList]

/-- Slashes that stand side by side do so in every path below. -/
theorem HasGap.below (gap : HasGap root) (name : String) : HasGap (below root name) := by
  have other : root.toList ≠ ['/'] := by
    intro lone
    have short := gap.length_le
    rw [lone] at short
    exact absurd short (by decide)
  rw [HasGap, toList_below, stem_of_ne other, List.append_assoc]
  exact gap.trans (List.prefix_append _ _).isInfix

theorem below_ne_root (isName : IsName name) (parent : String) : below parent name ≠ "/" := by
  intro lone
  have nonempty := List.length_pos_iff.mpr isName.toList_ne_nil
  have length := congrArg (fun text : String => text.toList.length) lone
  have one : "/".toList.length = 1 := rfl
  simp only [toList_below, List.length_append, one] at length
  have stemmed : 1 ≤ (stem parent.toList).length := by
    rw [stem]
    split
    · next isRoot => rw [isRoot]; decide
    · rw [List.length_append]; exact Nat.le_add_left 1 _
  omega

/-- What stands under the path of a service is the path that is registered. -/
theorem nodePath_eq_below (isRoot : IsRoot root) (isName : IsName key) (name : String) :
    withoutTail root ++ "/" ++ key ++ "/" ++ name = below (below root key) name := by
  rw [servicePath_eq_below isRoot, below.eq_def (below root key), if_neg (below_ne_root isName root)]

/-- The paths below a root are paths of a store exactly if the root has no gap. -/
theorem isPath_below_below_iff (isRoot : IsRoot root) (isKey : IsName key) (isName : IsName name) :
    (IsPath (below root key) ∧ IsPath (below (below root key) name)) ↔ ¬ HasGap root := by
  constructor
  · intro both gap
    exact ((isPath_iff _).mp both.1).2 (gap.below key)
  · intro gapless
    have valid := (isValid_iff_isPath root).mpr ((isPath_iff root).mpr ⟨isRoot, gapless⟩)
    have service := isValid_below valid isKey
    exact ⟨(isValid_iff_isPath _).mp service,
      (isValid_iff_isPath _).mp (isValid_below service isName)⟩

end Directory.Path

namespace Settings

/-- The root of valid settings begins with a slash and ends in none unless it is the lone slash. -/
theorem isRoot_of_valid {settings : Settings} (valid : settings.validate = .ok ()) :
    IsRoot settings.directory.root := by
  have none : settings.problems = [] := by
    rw [validate] at valid
    split at valid
    · next empty => exact List.isEmpty_iff.mp empty
    · exact nomatch valid
  have own : settings.directory.problems = [] := by
    simp only [problems, List.append_eq_nil_iff] at none
    exact none.1.1.2
  simp only [Settings.Directory.problems, found, List.filterMap_eq_nil_iff, List.mem_cons,
    List.not_mem_nil, or_false, forall_eq_or_imp, forall_eq, id] at own
  obtain ⟨-, own⟩ := own
  split at own
  · exact nomatch own
  · next first =>
      rw [not_ne_iff] at first
      refine ⟨first, fun other last => ?_⟩
      have long : 1 < settings.directory.root.toList.length := by
        cases chars : settings.directory.root.toList with
        | nil => simp [chars] at first
        | cons c rest =>
            rw [chars] at first
            cases rest with
            | nil =>
                refine absurd (String.toList_inj.mp ?_) other
                rw [chars]
                exact congrArg (fun d => [d]) (Option.some.inj first)
            | cons d rest => simp
      rw [Problem.when, if_pos (by simp [long, last])] at own
      exact nomatch own

end Settings

/-! ## Texts that are no paths -/

namespace Directory

/-- A server is told of a path that is none. -/
theorem Registration.register_invalid {ε : Type} {registration : Registration} {store : Store ε}
    {key : String} {address : SocketAddress} (weight : UInt32)
    (fresh : registration.paths.contains (registration.nodePath key address) = false)
    (within : store.isAvailable = true)
    (absent : store.tree.contains (registration.nodePath key address) = false)
    (invalid : isValid (registration.nodePath key address) = false) :
    (registration.register store key address weight).1
      = .error (.directory ("Invalid path: " ++ registration.nodePath key address)) := by
  have outside : store.contains (registration.nodePath key address) = .ok false := by
    rw [Store.contains, Store.reach, if_pos within, ← absent]
    rfl
  have refused (data : Bytes) : store.create (registration.nodePath key address) data
      = (.error (.directory ("Invalid path: " ++ registration.nodePath key address)), [], store) := by
    rw [Store.create, Store.queueCreate, Store.checkPath, if_neg (Bool.eq_false_iff.mp invalid)]
    rfl
  rw [register, ensureNode, if_neg (Bool.eq_false_iff.mp fresh), outside]
  dsimp only
  rw [refused]

/-- A cache that has nothing of a service tells of its path if that is none. -/
theorem Cache.lookup_invalid {cache : Cache} {store : Store Event} {key : String}
    (absent : cache.lists.get? key = none) (unwatched : cache.watched.contains key = false)
    (invalid : isValid (cache.servicePath key) = false) :
    (cache.lookup store key).1
      = .error (.directory ("Invalid path: " ++ cache.servicePath key)) := by
  rw [lookup, absent, ensureWatch, if_neg (Bool.eq_false_iff.mp unwatched), Store.watch,
    Store.checkPath, if_neg (Bool.eq_false_iff.mp invalid)]

/-- In a tree that was empty, what was created under a path is its only child. -/
theorem Tree.children_insert_empty {parent name : String} (valid : isValid parent = true)
    (isName : IsName name) (data : Bytes) :
    (Tree.empty.insert (below parent name) data).children parent = [name] := by
  refine (increasing_children _ parent).eq_of_mem_iff (List.pairwise_singleton _ _) fun other => ?_
  rw [mem_children_insert, List.mem_singleton]
  constructor
  · rintro (none | ⟨isOther, mem⟩)
    · exact nomatch none
    · rw [created_below valid isName] at mem
      rcases List.mem_cons.mp mem with same | above
      · have found := childName?_eq_some_iff.mpr ⟨isOther, same.symm⟩
        rw [childName?_eq_some_iff.mpr ⟨isName, rfl⟩] at found
        exact (Option.some.inj found).symm
      · -- what is created above is shorter
        split at above
        · exact nomatch above
        · have short := length_le_of_mem_created valid _ above
          have long := length_lt_below parent isOther
          omega
  · rintro rfl
    exact .inr ⟨isName, .head _⟩

end Directory

/-! ## The first registration -/

namespace Directory.CachedStore

variable {view : CachedStore} {root key name : String}

theorem Faithful.isAvailable_create (faithful : view.Faithful) (path : String) (data : Bytes) :
    (view.perform (.create path data)).store.isAvailable = view.store.isAvailable := by
  rw [perform, Store.create,
    (faithful.absorb_settle (Store.advances_queueCreate _ path data)).1]
  rfl

/-- In an empty store, every path can be created. -/
theorem free_ofRoot (root path : String) : (ofRoot root).store.isAvailable = true
    ∧ (ofRoot root).store.tree.contains path = false :=
  ⟨rfl, rfl⟩

/-- What is created first under the path of a service is the only address of the service. -/
theorem addresses_create (isRoot : IsRoot root) (valid : isValid (below root key) = true)
    (isName : IsName name) (data : Bytes) :
    ((ofRoot root).perform (.create (below (below root key) name) data)).addresses key = [name] := by
  have faithful := faithful_ofRoot root
  have follows := (faithful.follows (.create (below (below root key) name) data)).2
  rcases faithful.tree_create (below (below root key) name) data with ⟨-, grown⟩ | ⟨taken, -⟩
  · rw [addresses, follows.later.servicePath_eq key, grown]
    show (Tree.empty.insert _ data).children (withoutTail root ++ "/" ++ key) = [name]
    rw [servicePath_eq_below isRoot]
    exact Tree.children_insert_empty valid isName data
  · exact absurd ⟨isValid_below valid isName, free_ofRoot root _⟩ taken

/-- An address that is created first for a service is what a lookup of the service finds. -/
theorem lookup_create (isRoot : IsRoot root) (valid : isValid (below root key) = true)
    (isName : IsName name) (data : Bytes) :
    ∃ list, ((ofRoot root).perform (.create (below (below root key) name) data)).lookup key = .ok list
      ∧ list.addresses = [name] := by
  have faithful := faithful_ofRoot root
  have addresses := addresses_create isRoot valid isName data
  obtain ⟨faithful', follows⟩ := faithful.follows (.create (below (below root key) name) data)
  have canTell : ((ofRoot root).perform (.create (below (below root key) name) data)).CanTell key := by
    refine .inr ⟨?_, ?_⟩
    · rw [follows.later.servicePath_eq key]
      show IsPath (withoutTail root ++ "/" ++ key)
      rw [servicePath_eq_below isRoot]
      exact (isValid_iff_isPath _).mp valid
    · rw [faithful.isAvailable_create]
      exact (free_ofRoot root name).1
  obtain ⟨list, found, current⟩ := faithful'.coherent.finds key canTell (by rw [addresses]; nofun)
  exact ⟨list, found, current.trans addresses⟩

end Directory.CachedStore

/-! ## Contexts -/

namespace Context

/-- The store of a context and what was looked up in it. -/
def view (context : Context) : CachedStore :=
  ⟨context.store, context.discovery.cache⟩

theorem view_absorb (context : Context) (events : List Event) :
    (context.absorb events).view = context.view.absorb (events, context.store) := by
  rw [view, absorb, Deployment.foldl_absorb]
  rfl

variable {context : Context} {root key : String} {address : SocketAddress}

/-- A registration at a path that has no node creates one and is remembered. -/
theorem register_of_valid_path (weight : UInt32)
    (fresh : context.registration.paths.contains (context.registration.nodePath key address) = false)
    (free : isValid (context.registration.nodePath key address) = true
      ∧ context.store.isAvailable = true
      ∧ context.store.tree.contains (context.registration.nodePath key address) = false) :
    let path := context.registration.nodePath key address
    let outcome := context.register key address weight
    outcome.1 = .ok () ∧ outcome.2.registration = context.registration.adding path
      ∧ outcome.2.view
        = context.view.perform (.create path (Bytes.ofText (toString weight.toNat))) := by
  intro path outcome
  have same : outcome = context.register key address weight := rfl
  rw [register, context.registration.register_free context.store fresh free] at same
  rw [same]
  exact ⟨rfl, rfl, view_absorb _ _⟩

/-- Whether nothing was registered or looked up in a context, and its store is empty. -/
structure Fresh (context : Context) (root : String) : Prop where
  view : context.view = .ofRoot root
  registration : context.registration = .ofRoot root

/-- Valid settings make a context. -/
theorem exists_context {settings : Settings} (valid : settings.validate = .ok ()) :
    ∃ context, ofSettings settings = .ok context ∧ context.Fresh settings.directory.root := by
  refine ⟨«over» settings, ?_, rfl, rfl⟩
  rw [ofSettings, valid]
  rfl

namespace Fresh

theorem nodePath (fresh : context.Fresh root) (key : String) (address : SocketAddress) :
    context.registration.nodePath key address
      = withoutTail root ++ "/" ++ key ++ "/" ++ address.text := by
  rw [fresh.registration]
  rfl

theorem servicePath (fresh : context.Fresh root) (key : String) :
    context.discovery.cache.servicePath key = withoutTail root ++ "/" ++ key := by
  show context.view.cache.servicePath key = _
  rw [fresh.view]
  rfl

theorem unregistered (fresh : context.Fresh root) (path : String) :
    context.registration.paths.contains path = false := by
  rw [fresh.registration]
  rfl

theorem free (fresh : context.Fresh root) (path : String) :
    context.store.isAvailable = true ∧ context.store.tree.contains path = false := by
  show context.view.store.isAvailable = true ∧ context.view.store.tree.contains path = false
  rw [fresh.view]
  exact CachedStore.free_ofRoot root path

theorem unwatched (fresh : context.Fresh root) (key : String) :
    context.discovery.cache.lists.get? key = none
      ∧ context.discovery.cache.watched.contains key = false := by
  show context.view.cache.lists.get? key = none
    ∧ context.view.cache.watched.contains key = false
  rw [fresh.view]
  exact ⟨rfl, rfl⟩

/-- Where the root has no gap, an address is registered and then looked up. -/
theorem registers (fresh : context.Fresh root) (isRoot : IsRoot root) (isName : IsName key)
    (gapless : ¬ HasGap root) (address : SocketAddress) (weight : UInt32) :
    let outcome := context.register key address weight
    outcome.1 = .ok ()
      ∧ outcome.2.registration.registered = [context.registration.nodePath key address]
      ∧ ∃ list, (outcome.2.lookup key).1 = .ok list ∧ list.addresses = [address.text] := by
  intro outcome
  obtain ⟨isService, isPath⟩ :=
    (isPath_below_below_iff isRoot isName address.isName_text).mpr gapless
  have pathIs : context.registration.nodePath key address
      = below (below root key) address.text :=
    (fresh.nodePath key address).trans (nodePath_eq_below isRoot isName address.text)
  have valid : isValid (context.registration.nodePath key address) = true := by
    rw [pathIs]
    exact (isValid_iff_isPath _).mpr isPath
  obtain ⟨succeeded, remembered, created⟩ :=
    register_of_valid_path weight (fresh.unregistered _) ⟨valid, fresh.free _⟩
  obtain ⟨list, found, addresses⟩ := CachedStore.lookup_create isRoot
    ((isValid_iff_isPath _).mpr isService) address.isName_text
    (Bytes.ofText (toString weight.toNat))
  refine ⟨succeeded, ?_, list, ?_, addresses⟩
  · rw [remembered, fresh.registration]
    rfl
  · show outcome.2.view.lookup key = .ok list
    rw [created, fresh.view, pathIs]
    exact found

/-- Where the root has a gap, the store refuses the paths below. -/
theorem refuses (fresh : context.Fresh root) (isRoot : IsRoot root) (isName : IsName key)
    (gap : HasGap root) (address : SocketAddress) (weight : UInt32) :
    (context.register key address weight).1
        = .error (.directory ("Invalid path: " ++ context.registration.nodePath key address))
      ∧ (context.lookup key).1
        = .error (.directory ("Invalid path: " ++ context.discovery.cache.servicePath key)) := by
  have invalid {path : String} (gap : HasGap path) : isValid path = false := by
    refine Bool.eq_false_iff.mpr fun valid => ?_
    exact ((isPath_iff path).mp ((isValid_iff_isPath path).mp valid)).2 gap
  constructor
  · obtain ⟨within, absent⟩ := fresh.free (context.registration.nodePath key address)
    refine Registration.register_invalid weight (fresh.unregistered _) within absent (invalid ?_)
    rw [fresh.nodePath, nodePath_eq_below isRoot isName]
    exact (gap.below key).below address.text
  · obtain ⟨absent, unwatched⟩ := fresh.unwatched key
    refine Cache.lookup_invalid absent unwatched (invalid ?_)
    rw [fresh.servicePath, servicePath_eq_below isRoot]
    exact gap.below key

end Fresh

/-- With valid settings whose root has no two slashes side by side, every address is registered for
every service and then looked up; with a root that has, the store refuses the paths. -/
theorem register_of_valid {settings : Settings} (valid : settings.validate = .ok ())
    (isName : IsName key) (address : SocketAddress) (weight : UInt32) :
    let service := withoutTail settings.directory.root ++ "/" ++ key
    let path := service ++ "/" ++ address.text
    ∃ context, ofSettings settings = .ok context
      ∧ context.discovery.cache.servicePath key = service
      ∧ context.registration.nodePath key address = path
      ∧ let outcome := context.register key address weight
        (¬ HasGap settings.directory.root →
          IsPath service ∧ IsPath path ∧ outcome.1 = .ok ()
            ∧ outcome.2.registration.registered = [path]
            ∧ ∃ list, (outcome.2.lookup key).1 = .ok list ∧ list.addresses = [address.text])
        ∧ (HasGap settings.directory.root →
          outcome.1 = .error (.directory ("Invalid path: " ++ path))
            ∧ (context.lookup key).1 = .error (.directory ("Invalid path: " ++ service))) := by
  intro service path
  have isRoot := Settings.isRoot_of_valid valid
  obtain ⟨context, made, fresh⟩ := exists_context valid
  refine ⟨context, made, fresh.servicePath key, fresh.nodePath key address, ?_, ?_⟩
  · intro gapless
    obtain ⟨isService, isPath⟩ :=
      (isPath_below_below_iff isRoot isName address.isName_text).mpr gapless
    rw [← servicePath_eq_below isRoot] at isService
    rw [← nodePath_eq_below isRoot isName] at isPath
    rw [← show context.registration.nodePath key address = path from fresh.nodePath key address]
    exact ⟨isService, (fresh.nodePath key address).symm ▸ isPath,
      fresh.registers isRoot isName gapless address weight⟩
  · intro gap
    rw [← show context.registration.nodePath key address = path from fresh.nodePath key address,
      ← show context.discovery.cache.servicePath key = service from fresh.servicePath key]
    exact fresh.refuses isRoot isName gap address weight

/-- Under the lone slash, addresses are registered and looked up. -/
theorem register_of_valid_slash :
    let settings : Settings := { directory := { root := "/" } }
    let address : SocketAddress := ⟨.v4 127 0 0 1, 1, 0⟩
    settings.validate = .ok () ∧ IsName "A"
      ∧ ∃ context, ofSettings settings = .ok context
        ∧ context.registration.nodePath "A" address = "/A/127.0.0.1:1"
        ∧ (context.register "A" address 10).1 = .ok () := by
  intro settings address
  have valid : settings.validate = .ok () := by decide +kernel
  have isName : IsName "A" := ⟨by decide, by decide⟩
  obtain ⟨context, made, -, path, gapless, -⟩ := register_of_valid valid isName address 10
  obtain ⟨-, -, succeeded, -⟩ := gapless (by unfold HasGap; decide)
  refine ⟨valid, isName, context, made, ?_, succeeded⟩
  rw [path]
  decide +kernel

/-- A root with two slashes side by side passes validation, and the store refuses a path below. -/
theorem refuses_valid_root :
    let settings : Settings := { directory := { root := "/a//b" } }
    settings.validate = .ok ()
      ∧ ∃ context, ofSettings settings = .ok context
        ∧ (context.register "A" ⟨.v4 127 0 0 1, 1, 0⟩ 10).1
          = .error (.directory "Invalid path: /a//b/A/127.0.0.1:1") := by
  intro settings
  have valid : settings.validate = .ok () := by decide +kernel
  have isName : IsName "A" := ⟨by decide, by decide⟩
  obtain ⟨context, made, fresh⟩ := exists_context valid
  obtain ⟨refused, -⟩ := fresh.refuses (Settings.isRoot_of_valid valid) isName
    (by unfold HasGap; decide) ⟨.v4 127 0 0 1, 1, 0⟩ 10
  refine ⟨valid, context, made, refused.trans ?_⟩
  rw [fresh.nodePath]
  decide +kernel

end Context

end RemoteCall
