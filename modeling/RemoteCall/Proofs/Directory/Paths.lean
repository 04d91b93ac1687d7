import RemoteCall.Directory.Path

/-! # Paths are built from names

    A path is the lone slash, or it stands under another path with a name
    (`below`), and it does so in one way only: the parent and the name can be
    read off it (`exists_below`, `parent?_below`, `childName?_eq_some_iff`).
    This gives induction over paths (`induction_on`) and the list of the
    parents above one (`ancestors_below`).

    The route: two slashes stand side by side in joined texts only within one
    of them or at the joint (`hasGap_append`), so that a text is a path exactly
    when what stands before its last slash is one and a name stands behind. -/

namespace RemoteCall.Directory.Path

/-! ## Characters -/

section Characters

variable {path parent name : List Char}

theorem hasGap_cons (c : Char) (rest : List Char) :
    hasGap (c :: rest) = (c == '/' && rest.head? == some '/' || hasGap rest) := by
  by_cases first : c = '/'
  · subst first
    cases rest with
    | nil => rfl
    | cons d rest =>
        by_cases second : d = '/'
        · subst second
          rfl
        · rw [hasGap.eq_2]
          · simp [second]
          · intro rest' _ same
            exact second (List.cons.inj same).1
  · rw [hasGap.eq_2]
    · simp [first]
    · intro rest' same _
      exact first same

/-- Slashes stand side by side within one of two parts or where they meet. -/
theorem hasGap_append (front back : List Char) :
    hasGap (front ++ back)
      = (hasGap front || (front.getLast? == some '/' && back.head? == some '/') || hasGap back) := by
  induction front with
  | nil => simp [hasGap]
  | cons c front ih =>
      rw [List.cons_append, hasGap_cons, hasGap_cons, ih]
      cases front with
      | nil => simp [hasGap]
      | cons d front =>
          rw [List.getLast?_cons_cons]
          simp [Bool.or_assoc]

theorem hasGap_of_not_mem (noSlash : '/' ∉ name) : hasGap name = false := by
  induction name with
  | nil => rfl
  | cons c name ih =>
      obtain ⟨first, rest⟩ := not_or.mp (mt List.mem_cons.mpr noSlash)
      rw [hasGap_cons, ih rest]
      simp [Ne.symm first]

/-- Slashes stand side by side if two of them are part of the text. -/
theorem hasGap_iff : hasGap path = true ↔ ['/', '/'] <:+: path := by
  induction path with
  | nil => simp [hasGap]
  | cons c path ih =>
      rw [hasGap_cons, Bool.or_eq_true, ih, List.infix_cons_iff, List.cons_prefix_cons]
      refine or_congr_left ?_
      cases path with
      | nil => simp
      | cons d path =>
          rw [List.cons_prefix_cons, Bool.and_eq_true, beq_iff_eq, beq_iff_eq, List.head?_cons,
            Option.some_inj, eq_comm, @eq_comm _ d]
          simp

theorem isValidChars_iff :
    isValidChars path = true ↔ path.head? = some '/'
      ∧ (path.length = 1 ∨ path.getLast? ≠ some '/') ∧ hasGap path = false := by
  rw [isValidChars]
  simp [and_assoc]

theorem stem_root : stem ['/'] = ['/'] := rfl

theorem stem_of_ne (other : parent ≠ ['/']) : stem parent = parent ++ ['/'] :=
  if_neg other

/-- A path does not end in a slash, except the lone one. -/
theorem getLast?_ne_of_isValidChars (valid : isValidChars path = true) (other : path ≠ ['/']) :
    path.getLast? ≠ some '/' := by
  obtain ⟨first, single | last, -⟩ := isValidChars_iff.mp valid
  · obtain ⟨c, rfl⟩ := List.length_eq_one_iff.mp single
    exact absurd (congrArg (fun d => [d]) (Option.some.inj first)) other
  · exact last

/-- A stem begins and ends with a slash and has no two side by side. -/
theorem stem_spec (valid : isValidChars parent = true) :
    (stem parent).head? = some '/' ∧ (stem parent).getLast? = some '/'
      ∧ hasGap (stem parent) = false := by
  by_cases root : parent = ['/']
  · subst root
    decide
  · have last := getLast?_ne_of_isValidChars valid root
    obtain ⟨first, -, gapless⟩ := isValidChars_iff.mp valid
    rw [stem_of_ne root, hasGap_append, gapless, List.head?_append, first, List.getLast?_concat]
    simp [hasGap, last]

/-- What stands under a path with a name is a path. -/
theorem isValidChars_append (valid : isValidChars parent = true) (nonempty : name ≠ [])
    (noSlash : '/' ∉ name) : isValidChars (stem parent ++ name) = true := by
  obtain ⟨first, -, gapless⟩ := stem_spec valid
  obtain ⟨c, rest, rfl⟩ := List.exists_cons_of_ne_nil nonempty
  have start : c ≠ '/' := fun same => noSlash (same ▸ .head rest)
  refine isValidChars_iff.mpr ⟨?_, .inr ?_, ?_⟩
  · rw [List.head?_append, first]
    rfl
  · rw [List.getLast?_append, List.getLast?_cons, Option.some_or]
    intro last
    exact noSlash (List.mem_of_getLast? (List.getLast?_cons.trans last))
  · rw [hasGap_append, gapless, hasGap_of_not_mem noSlash]
    simp [start]

/-- A path other than the lone slash stands under a path with a name. -/
theorem exists_stem_append (valid : isValidChars path = true) (other : path ≠ ['/']) :
    ∃ parent name, isValidChars parent = true ∧ name ≠ [] ∧ '/' ∉ name
      ∧ path = stem parent ++ name := by
  have last := getLast?_ne_of_isValidChars valid other
  obtain ⟨first, -, gapless⟩ := isValidChars_iff.mp valid
  -- the name is what stands behind the last slash
  have slash : '/' ∈ path.reverse := List.mem_reverse.mpr (List.mem_of_head? first)
  obtain ⟨back, front, split, noSlash⟩ := List.eq_append_cons_of_mem slash
  have split : path = front.reverse ++ '/' :: back.reverse := by
    rw [← List.reverse_reverse path, split, List.reverse_append, List.reverse_cons,
      List.append_assoc]
    rfl
  have nonempty : back.reverse ≠ [] := by
    intro empty
    rw [split, empty, List.getLast?_concat] at last
    exact last rfl
  have noSlash : '/' ∉ back.reverse := mt List.mem_reverse.mp noSlash
  by_cases root : front = []
  · subst root
    exact ⟨['/'], back.reverse, by decide, nonempty, noSlash, split⟩
  · have front' : front.reverse ≠ [] := mt List.reverse_eq_nil_iff.mp root
    rw [split, hasGap_append] at gapless
    rw [split, List.head?_append, List.head?_eq_some_head front', Option.some_or] at first
    rw [← List.head?_eq_some_head front'] at first
    simp only [Bool.or_eq_false_iff, List.head?_cons, BEq.rfl, Bool.and_true] at gapless
    have apart : front.reverse.getLast? ≠ some '/' := by simpa using gapless.1.2
    have notRoot : front.reverse ≠ ['/'] := by
      intro root
      rw [root] at apart
      exact apart rfl
    refine ⟨front.reverse, back.reverse, isValidChars_iff.mpr ⟨first, .inr apart, gapless.1.1⟩,
      nonempty, noSlash, ?_⟩
    rw [stem_of_ne notRoot, List.append_assoc, List.singleton_append]
    exact split

theorem reverse_dropWhile_stem (noSlash : '/' ∉ name) (front : List Char) :
    (front ++ '/' :: name).reverse.dropWhile (· ≠ '/') = '/' :: front.reverse := by
  have dropped : ∀ c ∈ name.reverse, decide (c ≠ '/') = true := by
    intro c mem
    refine decide_eq_true fun same => ?_
    exact noSlash (same ▸ List.mem_reverse.mp mem)
  rw [List.reverse_append, List.reverse_cons, List.append_assoc,
    List.dropWhile_append_of_pos dropped]
  rfl

/-- The parent of what stands under a path. -/
theorem parentChars?_append (valid : isValidChars parent = true) (nonempty : name ≠ [])
    (noSlash : '/' ∉ name) : parentChars? (stem parent ++ name) = some parent := by
  rw [parentChars?]
  by_cases root : parent = ['/']
  · subst root
    have more : (['/'] ++ name).length ≠ 1 := by
      have := List.length_pos_iff.mpr nonempty
      simp only [List.singleton_append, List.length_cons]
      omega
    have dropped := reverse_dropWhile_stem noSlash []
    rw [stem_root]
    rw [List.nil_append, List.reverse_nil, ← List.singleton_append] at dropped
    rw [dropped]
    exact if_neg more
  · rw [stem_of_ne root, List.append_assoc, List.singleton_append,
      reverse_dropWhile_stem noSlash parent]
    obtain ⟨first, -, -⟩ := isValidChars_iff.mp valid
    cases reversed : parent.reverse with
    | nil =>
        rw [List.reverse_eq_nil_iff.mp reversed] at first
        exact nomatch first
    | cons c rest =>
        dsimp only
        rw [← reversed, List.reverse_reverse]

theorem nameUnder?_eq_some_iff :
    nameUnder? parent path = some name ↔ name ≠ [] ∧ '/' ∉ name ∧ path = stem parent ++ name := by
  rw [nameUnder?]
  constructor
  · intro found
    split at found
    · next holds =>
        obtain rfl := Option.some.inj found
        simp only [Bool.and_eq_true, Bool.not_eq_true', List.isPrefixOf_iff_prefix,
          List.isEmpty_eq_false_iff] at holds
        obtain ⟨⟨⟨rest, rfl⟩, nonempty⟩, noSlash⟩ := holds
        rw [List.drop_left] at nonempty noSlash ⊢
        exact ⟨nonempty, by simpa using noSlash, rfl⟩
    · exact nomatch found
  · rintro ⟨nonempty, noSlash, rfl⟩
    rw [List.drop_left, if_pos]
    simp [nonempty, noSlash]

end Characters

/-! ## Texts -/

/-- Whether a text can be the name of a node. -/
def IsName (name : String) : Prop :=
  name ≠ "" ∧ '/' ∉ name.toList

/-- The path that stands directly under another one with a name. -/
def below (parent name : String) : String :=
  if parent = "/" then "/" ++ name else parent ++ "/" ++ name

theorem toList_below (parent name : String) :
    (below parent name).toList = stem parent.toList ++ name.toList := by
  rw [below]
  by_cases root : parent = "/"
  · subst root
    exact String.toList_append
  · have other : parent.toList ≠ ['/'] := fun same => root (String.toList_inj.mp same)
    rw [if_neg root, stem_of_ne other, String.toList_append, String.toList_append]
    rfl

theorem below_eq (parent name : String) : below parent name = stemOf parent ++ name := by
  rw [← String.toList_inj, toList_below, String.toList_append, stemOf, String.toList_ofList]

/-- Whether a text begins with a slash, has no two side by side, and does not end in one unless it is
the lone slash. -/
def IsPath (path : String) : Prop :=
  path.toList.head? = some '/' ∧ ¬ ['/', '/'] <:+: path.toList
    ∧ (path ≠ "/" → path.toList.getLast? ≠ some '/')

theorem isValid_iff_isPath (path : String) : isValid path = true ↔ IsPath path := by
  rw [isValid, isValidChars_iff, IsPath, ← hasGap_iff, Bool.not_eq_true]
  refine and_congr_right fun first => (and_comm.trans (and_congr_right fun _ => ?_))
  have single : path.toList.length = 1 ↔ path = "/" := by
    rw [← String.toList_inj, List.length_eq_one_iff]
    constructor
    · rintro ⟨c, same⟩
      rw [same] at first ⊢
      exact congrArg (fun d => [d]) (Option.some.inj first)
    · exact fun same => ⟨'/', same⟩
  rw [single, Decidable.or_iff_not_imp_left]

theorem IsName.toList_ne_nil {name : String} (isName : IsName name) : name.toList ≠ [] :=
  fun empty => isName.1 (String.toList_eq_nil_iff.mp empty)

variable {path parent name : String}

theorem isValid_below (valid : isValid parent = true) (isName : IsName name) :
    isValid (below parent name) = true := by
  rw [isValid, toList_below]
  exact isValidChars_append valid isName.toList_ne_nil isName.2

/-- A path is the lone slash or stands under a path with a name. -/
theorem exists_below (valid : isValid path = true) :
    path = "/" ∨ ∃ parent name, isValid parent = true ∧ IsName name
      ∧ path = below parent name := by
  by_cases root : path = "/"
  · exact .inl root
  · have other : path.toList ≠ ['/'] := fun same => root (String.toList_inj.mp same)
    obtain ⟨parent, name, valid, nonempty, noSlash, same⟩ := exists_stem_append valid other
    refine .inr ⟨String.ofList parent, String.ofList name, ?_, ⟨?_, ?_⟩, String.toList_inj.mp ?_⟩
    · rwa [isValid, String.toList_ofList]
    · intro empty
      rw [String.ofList_eq_empty_iff] at empty
      exact nonempty empty
    · rwa [String.toList_ofList]
    · rw [same, toList_below, String.toList_ofList, String.toList_ofList]

theorem parent?_below (valid : isValid parent = true) (isName : IsName name) :
    parent? (below parent name) = some parent := by
  rw [parent?, toList_below, parentChars?_append valid isName.toList_ne_nil isName.2,
    Option.map_some, String.ofList_toList]

theorem childName?_eq_some_iff :
    childName? parent path = some name ↔ IsName name ∧ path = below parent name := by
  rw [childName?, Option.map_eq_some_iff, ← String.toList_inj, toList_below]
  constructor
  · rintro ⟨characters, found, rfl⟩
    obtain ⟨nonempty, noSlash, same⟩ := nameUnder?_eq_some_iff.mp found
    rw [String.toList_ofList]
    refine ⟨⟨fun empty => nonempty (String.ofList_eq_empty_iff.mp empty), ?_⟩, same⟩
    rwa [String.toList_ofList]
  · rintro ⟨isName, same⟩
    exact ⟨name.toList, nameUnder?_eq_some_iff.mpr ⟨isName.toList_ne_nil, isName.2, same⟩,
      String.ofList_toList⟩

/-- A path stands under its parent with a name. -/
theorem parent?_eq_some_iff (valid : isValid path = true) :
    parent? path = some parent
      ↔ isValid parent = true ∧ ∃ name, IsName name ∧ path = below parent name := by
  constructor
  · intro found
    rcases exists_below valid with rfl | ⟨above, name, validAbove, isName, rfl⟩
    · exact nomatch found
    · obtain rfl := Option.some.inj ((parent?_below validAbove isName).symm.trans found)
      exact ⟨validAbove, name, isName, rfl⟩
  · rintro ⟨validParent, name, isName, rfl⟩
    exact parent?_below validParent isName

theorem length_lt_below (parent : String) (isName : IsName name) :
    parent.toList.length < (below parent name).toList.length := by
  have nonempty := List.length_pos_iff.mpr isName.toList_ne_nil
  rw [toList_below, List.length_append, stem]
  split
  · omega
  · rw [List.length_append]
    omega

theorem isValid_root : isValid "/" = true := by decide

/-- Induction over paths: from each path to what stands under it. -/
theorem induction_on {motive : ∀ path : String, isValid path = true → Prop}
    (root : motive "/" isValid_root)
    (step : ∀ parent name (valid : isValid parent = true) (isName : IsName name),
      motive parent valid → motive (below parent name) (isValid_below valid isName))
    (path : String) (valid : isValid path = true) : motive path valid := by
  rcases exists_below valid with rfl | ⟨parent, name, validParent, isName, rfl⟩
  · exact root
  · have := length_lt_below parent isName
    exact step parent name validParent isName (induction_on root step parent validParent)
termination_by path.toList.length

/-! ## The parents above a path -/

theorem parentsAbove_root (fuel : Nat) : parentsAbove fuel ['/'] = [] := by
  cases fuel <;> rfl

theorem parentsAbove_below (valid : isValid parent = true) (isName : IsName name) (fuel : Nat) :
    parentsAbove (fuel + 1) (below parent name).toList
      = if parent = "/" then [] else parent.toList :: parentsAbove fuel parent.toList := by
  rw [parentsAbove, toList_below, parentChars?_append valid isName.toList_ne_nil isName.2]
  dsimp only
  by_cases root : parent = "/"
  · subst root
    rfl
  · have other : parent.toList ≠ ['/'] := fun same => root (String.toList_inj.mp same)
    rw [if_neg root, if_neg other]

/-- As much fuel as there are characters is enough. -/
theorem parentsAbove_of_le (path : String) (valid : isValid path = true) :
    ∀ fuel, path.toList.length ≤ fuel →
      parentsAbove fuel path.toList = parentsAbove path.toList.length path.toList := by
  induction path, valid using induction_on with
  | root =>
      intro fuel _
      exact (parentsAbove_root fuel).trans (parentsAbove_root _).symm
  | step parent name validParent isName ih =>
      intro fuel enough
      have shorter := length_lt_below parent isName
      obtain ⟨length, same⟩ := Nat.exists_eq_add_one_of_ne_zero (Nat.ne_zero_of_lt shorter)
      obtain ⟨fuel, rfl⟩ := Nat.exists_eq_add_one_of_ne_zero
        (Nat.ne_zero_of_lt (Nat.lt_of_lt_of_le shorter enough))
      rw [same] at shorter enough ⊢
      rw [parentsAbove_below validParent isName, parentsAbove_below validParent isName,
        ih fuel (by omega), ih length (by omega)]

theorem ancestors_root : ancestors "/" = [] := by
  decide

/-- The parents above a path are its parent, unless that is the lone slash, and those above. -/
theorem ancestors_below (valid : isValid parent = true) (isName : IsName name) :
    ancestors (below parent name) = if parent = "/" then [] else parent :: ancestors parent := by
  have shorter := length_lt_below parent isName
  have same : (below parent name).length = (below parent name).toList.length :=
    String.length_toList.symm
  obtain ⟨length, counted⟩ := Nat.exists_eq_add_one_of_ne_zero (Nat.ne_zero_of_lt shorter)
  rw [ancestors, same, counted, parentsAbove_below valid isName]
  by_cases root : parent = "/"
  · rw [if_pos root, if_pos root]
    rfl
  · rw [if_neg root, if_neg root, List.map_cons, String.ofList_toList,
      parentsAbove_of_le parent valid length (by omega), ancestors, ← String.length_toList]

/-- Whether a path other than the lone slash stands above another one. -/
def IsAbove (ancestor path : String) : Prop :=
  isValid ancestor = true ∧ ancestor ≠ "/" ∧ ancestor.toList ++ ['/'] <+: path.toList

/-- A prefix that ends in a slash ends before the name behind the last slash. -/
theorem prefix_append_iff {start front name : List Char} (noSlash : '/' ∉ name) :
    start ++ ['/'] <+: front ++ name ↔ start ++ ['/'] <+: front := by
  refine ⟨fun ⟨rest, same⟩ => ?_, fun begins => begins.trans (List.prefix_append ..)⟩
  rcases List.append_eq_append_iff.mp same with ⟨more, rfl, -⟩ | ⟨more, joint, rfl⟩
  · exact List.prefix_append ..
  · rcases List.eq_nil_or_concat more with rfl | ⟨before, last, rfl⟩
    · have whole : start ++ ['/'] = front := joint.trans (List.append_nil front)
      exact whole ▸ List.prefix_rfl
    · rw [List.concat_eq_append, ← List.append_assoc] at joint
      have slash : ['/'] = [last] := List.append_inj_right' joint rfl
      rw [List.concat_eq_append, ← slash] at noSlash
      simp at noSlash

/-- Above a path stands its parent, unless that is the lone slash, and what stands above that. -/
theorem isAbove_below (isName : IsName name) {ancestor : String} :
    IsAbove ancestor (below parent name)
      ↔ isValid ancestor = true ∧ ancestor ≠ "/" ∧ ancestor = parent ∨ IsAbove ancestor parent := by
  rw [IsAbove, IsAbove, toList_below, prefix_append_iff isName.2, ← and_or_left, ← and_or_left]
  refine and_congr_right fun _ => and_congr_right fun other => ?_
  by_cases root : parent = "/"
  · subst root
    exact (or_iff_right other).symm
  · have inner : parent.toList ≠ ['/'] := fun same => root (String.toList_inj.mp same)
    rw [stem_of_ne inner, List.prefix_concat_iff, List.append_left_inj, String.toList_inj]

theorem not_isAbove_root (path : String) : ¬ IsAbove path "/" := by
  rintro ⟨valid, -, begins⟩
  have short := begins.length_le
  simp only [List.length_append, List.length_singleton] at short
  have empty : path = "" := String.toList_eq_nil_iff.mp (List.length_eq_zero_iff.mp (by
    have : "/".toList.length = 1 := rfl
    omega))
  subst empty
  exact absurd valid (by decide)

/-- The parents above a path are the paths above it. -/
theorem mem_ancestors (valid : isValid path = true) {ancestor : String} :
    ancestor ∈ ancestors path ↔ IsAbove ancestor path := by
  induction path, valid using induction_on with
  | root =>
      rw [ancestors_root]
      exact iff_of_false List.not_mem_nil (not_isAbove_root ancestor)
  | step parent name valid isName ih =>
      rw [ancestors_below valid isName, isAbove_below isName, ← ih]
      by_cases root : parent = "/"
      · subst root
        rw [if_pos rfl, ancestors_root]
        exact iff_of_false List.not_mem_nil
          (not_or.mpr ⟨fun above => above.2.1 above.2.2, List.not_mem_nil⟩)
      · rw [if_neg root, List.mem_cons]
        refine or_congr_left ⟨?_, fun above => above.2.2⟩
        rintro rfl
        exact ⟨valid, root, rfl⟩

end RemoteCall.Directory.Path
