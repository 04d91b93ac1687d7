import RemoteCall.Proofs.Toml.Tokens

/-! # Documents that are written and read again

    A document of sections is written line by line, and its reader finds a
    statement on each line (`Spells`), whatever stands on the lines behind.  A
    statement adds to the table that the statements before it have built up;
    since no name is given twice, it finds room there (`foldlM_append`).  So
    what is read is what was written, in its order (`read?_of_write?`). -/

namespace RemoteCall.Toml

/-! ## The ends of lines -/

theorem peek_cons (c : Char) (rest : List Char) :
    peek (c :: rest) = some (some c, c :: rest) :=
  rfl

/-- Nothing is skipped in front of a character that is no blank and begins neither a comment nor the
end of a line. -/
theorem skipLines_none {cs : List Char} (blank : ∀ c ∈ cs.head?, isBlank c = false)
    (comment : cs.head? ≠ some '#') (line : cs.head? ≠ some '\n')
    (carriage : cs.head? ≠ some '\x0d') : skipLines cs = some ((), cs) := by
  rw [skipLines]
  cases cs.length with
  | zero => exact skipBlanks_none blank
  | succ bound =>
      rw [skipLinesUpTo, bind_of_some (skipBlanks_none blank)]
      show (peek >>= _) cs = _
      rw [bind_of_some (show peek cs = some (cs.head?, cs) from rfl), if_neg comment,
        bind_of_some (acceptNewline_of_head?_ne line carriage)]
      rfl

/-- An empty line is skipped. -/
theorem skipLines_line (rest : List Char) : skipLines ('\n' :: rest) = skipLines rest := by
  rw [skipLines, List.length_cons, skipLinesUpTo,
    bind_of_some (skipBlanks_none (by simp [isBlank]))]
  show (peek >>= _) ('\n' :: rest) = _
  rw [bind_of_some (peek_cons '\n' rest),
    if_neg (by decide), bind_of_some (acceptNewline_line rest)]
  rfl

theorem endLine_line (rest : List Char) : endLine ('\n' :: rest) = some ((), rest) := by
  have comment : skipComment ('\n' :: rest) = some ((), '\n' :: rest) := by
    rw [skipComment, bind_of_some (accept_of_head?_ne (by simp) [])]
    rfl
  rw [endLine, bind_of_some (skipBlanks_none (by simp [isBlank])), bind_of_some comment,
    bind_of_some (acceptNewline_line rest)]
  rfl

/-! ## Lines -/

/-- Some characters are lines that hold these statements. No mark of the order of bytes stands in
front of them. -/
structure Spells (cs : List Char) (statements : List Statement) : Prop where
  unmarked : cs.head? ≠ some '\ufeff'
  short : statements.length ≤ cs.length
  read : ∀ bound, statements.length < bound → statementsUpTo bound cs = some (statements, [])

theorem spells_nil : Spells [] [] where
  unmarked := nofun
  short := Nat.le_refl 0
  read
    | _ + 1, _ => rfl

/-- An empty line holds no statement. -/
theorem Spells.line {cs : List Char} {statements : List Statement}
    (spells : Spells cs statements) : Spells ('\n' :: cs) statements where
  unmarked := by simp
  short := Nat.le_succ_of_le spells.short
  read
    | 0, more => absurd more (Nat.not_lt_zero _)
    | bound + 1, more => by
      have read := spells.read (bound + 1) more
      rw [statementsUpTo] at read ⊢
      show (skipLines ('\n' :: cs)).bind _ = _
      rw [skipLines_line]
      exact read

theorem header_bare {name : List Char} (isKey : IsBareKey name) (rest : List Char) :
    header ('[' :: (name ++ ']' :: rest)) = some (.table [] (String.ofList name), rest) := by
  have single : ¬ ['[', '['] <+: '[' :: (name ++ ']' :: rest) := by
    intro both
    obtain ⟨tail, same⟩ := (List.cons_prefix_cons.mp both).2
    exact isKey.head?_ne (by decide) (']' :: rest) (congrArg List.head? same.symm)
  rw [header, bind_of_some (accept_of_not_isPrefix single)]
  show (expect ['['] >>= _) ('[' :: (name ++ ([] ++ ']' :: rest))) = _
  rw [bind_of_some (expect_cons '[' _),
    bind_of_some (key_bare isKey (List.forall_mem_nil _) (by simp; decide))]
  show (expect [']'] >>= _) (']' :: rest) = _
  rw [bind_of_some (expect_cons ']' rest)]
  rfl

theorem assignment_write {name : List Char} (isKey : IsBareKey name) {v : Scalar} {text : String}
    (written : v.write? = some text) (depth : Nat) (rest : List Char) :
    assignment (value depth) (name ++ (' ' :: '=' :: ' ' :: (text.toList ++ '\n' :: rest)))
      = some (⟨[], String.ofList name, .scalar v⟩, '\n' :: rest) := by
  have blank : ∀ c ∈ (text.toList ++ '\n' :: rest).head?, isBlank c = false := by
    obtain ⟨c, tail, same, first⟩ := exists_write written
    rw [same]
    rintro c ⟨⟩
    rcases first with rfl | rfl | rfl | rfl | rfl | digit
    iterate 5 decide
    refine Bool.eq_false_iff.mpr fun blank => ?_
    rcases eq_of_isBlank blank with rfl | rfl <;> exact absurd digit (by decide)
  rw [assignment]
  show (key >>= _) (name ++ ([' '] ++ '=' :: ' ' :: (text.toList ++ '\n' :: rest))) = _
  rw [bind_of_some (key_bare isKey (by simp [isBlank]) (by simp; decide))]
  show (expect ['='] >>= _) ('=' :: ([' '] ++ (text.toList ++ '\n' :: rest))) = _
  rw [bind_of_some (expect_cons '=' _), bind_of_some (skipBlanks_append (by simp [isBlank]) blank),
    bind_of_some (value_write written depth rest)]
  rfl

theorem Spells.header {name cs : List Char} {statements : List Statement}
    (spells : Spells cs statements) (isKey : IsBareKey name) :
    Spells ('[' :: (name ++ ']' :: '\n' :: cs))
      (.header (.table [] (String.ofList name)) :: statements) where
  unmarked := by simp
  short := by
    have short := spells.short
    simp only [List.length_cons, List.length_append]
    omega
  read
    | bound + 1, more => by
      have found := header_bare isKey ('\n' :: cs)
      rw [statementsUpTo,
        bind_of_some (skipLines_none (by simp [isBlank]) (by simp) (by simp) (by simp))]
      show (peek >>= _) ('[' :: (name ++ ']' :: '\n' :: cs)) = _
      rw [bind_of_some (peek_cons '[' _)]
      show (Toml.header >>= _) ('[' :: (name ++ ']' :: '\n' :: cs)) = _
      rw [bind_of_some found, bind_of_some (endLine_line cs),
        bind_of_some (spells.read bound (Nat.lt_of_succ_lt_succ more))]
      rfl

theorem Spells.assignment {name cs : List Char} {statements : List Statement}
    (spells : Spells cs statements) (isKey : IsBareKey name) {v : Scalar} {text : String}
    (written : v.write? = some text) :
    Spells (name ++ (' ' :: '=' :: ' ' :: (text.toList ++ '\n' :: cs)))
      (.assignment ⟨[], String.ofList name, .scalar v⟩ :: statements) where
  unmarked := isKey.head?_ne (by decide) _
  short := by
    have short := spells.short
    simp only [List.length_cons, List.length_append]
    omega
  read
    | bound + 1, more => by
      have found := assignment_write isKey written nestingLimit cs
      obtain ⟨c, tail, rfl⟩ := List.exists_cons_of_ne_nil isKey.nonempty
      have bracket : c ≠ '[' := fun same =>
        isKey.head?_ne (c := '[') (by decide) [] (congrArg some same)
      rw [statementsUpTo, bind_of_some (skipLines_none (isKey.not_blank _)
        (isKey.head?_ne (by decide) _) (isKey.head?_ne (by decide) _)
        (isKey.head?_ne (by decide) _))]
      show (peek >>= _) (c :: (tail ++ _)) = _
      rw [bind_of_some (peek_cons c _)]
      -- by `bracket`, this is not the branch of a header
      simp only
      rw [← List.cons_append, bind_of_some found, bind_of_some (endLine_line cs),
          bind_of_some (spells.read bound (Nat.lt_of_succ_lt_succ more))]
      rfl

/-! ## Sections -/

/-- The assignment that a line of a section holds. -/
def assignmentOf (entry : String × Scalar) : Assignment :=
  ⟨[], entry.1, .scalar entry.2⟩

/-- The statements of a section. -/
def statementsOf (s : String × List (String × Scalar)) : List Statement :=
  .header (.table [] s.1) :: (s.2.map assignmentOf).map .assignment

theorem Spells.assignmentLine {cs : List Char} {statements : List Statement}
    (spells : Spells cs statements) {entry : String × Scalar} (isKey : IsBareKey entry.1.toList)
    {line : String} (written : assignmentLine? entry = some line) :
    Spells (line.toList ++ cs) (.assignment (assignmentOf entry) :: statements) := by
  obtain ⟨text, shown, same⟩ := Option.bind_eq_some_iff.mp written
  obtain rfl := Option.some.inj same
  have spelled := spells.assignment isKey shown
  rw [String.ofList_toList] at spelled
  simpa [assignmentOf, String.toList_append] using spelled

theorem Spells.assignmentLines {cs : List Char} {statements : List Statement}
    (spells : Spells cs statements) {entries : List (String × Scalar)}
    (bare : ∀ entry ∈ entries, IsBareKey entry.1.toList) {lines : List String}
    (written : entries.mapM assignmentLine? = some lines) :
    Spells ((String.join lines).toList ++ cs)
      ((entries.map assignmentOf).map .assignment ++ statements) := by
  induction entries generalizing lines with
  | nil =>
      obtain rfl := Option.some.inj written
      exact spells
  | cons entry entries ih =>
      rw [List.mapM_cons] at written
      obtain ⟨line, first, rest⟩ := Option.bind_eq_some_iff.mp written
      obtain ⟨others, behind, same⟩ := Option.bind_eq_some_iff.mp rest
      obtain rfl := Option.some.inj same
      have spelled := (ih (fun entry mem => bare entry (.tail _ mem)) behind).assignmentLine
        (bare entry (.head _)) first
      simpa [String.toList_join] using spelled

/-- A document whose names of sections and keys may stand without quotes. -/
def IsBare (document : List (String × List (String × Scalar))) : Prop :=
  ∀ s ∈ document, IsBareKey s.1.toList ∧ ∀ entry ∈ s.2, IsBareKey entry.1.toList

theorem Spells.sectionText {cs : List Char} {statements : List Statement}
    (spells : Spells cs statements) {s : String × List (String × Scalar)}
    (isKey : IsBareKey s.1.toList) (bare : ∀ entry ∈ s.2, IsBareKey entry.1.toList)
    {text : String} (written : sectionText? s = some text) :
    Spells (text.toList ++ cs) (statementsOf s ++ statements) := by
  obtain ⟨lines, shown, same⟩ := Option.bind_eq_some_iff.mp written
  obtain rfl := Option.some.inj same
  have spelled := (spells.assignmentLines bare shown).header isKey
  rw [String.ofList_toList] at spelled
  simpa [statementsOf, String.toList_append] using spelled

/-- Sections with an empty line between them hold their statements. -/
theorem spells_intercalate {document : List (String × List (String × Scalar))}
    (bare : IsBare document) {texts : List String}
    (written : document.mapM sectionText? = some texts) :
    Spells ("\n".intercalate texts).toList (document.flatMap statementsOf) := by
  rw [String.toList_intercalate]
  induction document generalizing texts with
  | nil =>
      obtain rfl := Option.some.inj written
      exact spells_nil
  | cons s document ih =>
      rw [List.mapM_cons] at written
      obtain ⟨first, own, rest⟩ := Option.bind_eq_some_iff.mp written
      obtain ⟨others, behind, same⟩ := Option.bind_eq_some_iff.mp rest
      obtain rfl := Option.some.inj same
      obtain ⟨isKey, entries⟩ := bare s (.head _)
      have spells := ih (fun s mem => bare s (.tail _ mem)) behind
      rw [List.flatMap_cons]
      cases others with
      | nil =>
          have spelled := spells.sectionText isKey entries own
          simpa [List.intercalate] using spelled
      | cons second others =>
          have spelled := spells.line.sectionText isKey entries own
          simpa [List.intercalate] using spelled

/-- The lines of a text are read. -/
theorem Spells.statements? {text : String} {statements : List Statement}
    (spells : Spells text.toList statements) : statements? text = some statements := by
  rw [Toml.statements?, if_neg spells.unmarked,
    spells.read _ (Nat.lt_succ_of_le spells.short)]
  rfl

/-! ## Tables -/

/-- Assignments on lines one after another belong together. -/
theorem split_map_assignment (body : List Assignment) (rest : List Statement) :
    Section.split (body.map .assignment ++ rest)
      = (body ++ (Section.split rest).1, (Section.split rest).2) := by
  induction body with
  | nil => rfl
  | cons a body ih =>
      rw [List.map_cons, List.cons_append, Section.split, ih]
      rfl

/-- A section with its assignments. -/
def sectionOf (s : String × List (String × Scalar)) : Section :=
  ⟨.table [] s.1, s.2.map assignmentOf⟩

theorem split_statementsOf (document : List (String × List (String × Scalar))) :
    Section.split (document.flatMap statementsOf) = ([], document.map sectionOf) := by
  induction document with
  | nil => rfl
  | cons s document ih =>
      rw [List.flatMap_cons, statementsOf, List.cons_append, Section.split, split_map_assignment,
        ih, List.append_nil]
      rfl

/-- What is added under fresh names comes behind what is there, in its order. -/
theorem foldlM_append {α : Type} {add : Entries → α → Option Entries} {entryOf : α → String × Value}
    {items : List α} (adds : ∀ a ∈ items, ∀ entries : Entries, entries.get? (entryOf a).1 = none →
      add entries a = some (entries ++ [entryOf a]))
    (nodup : (items.map fun a => (entryOf a).1).Nodup) {entries : Entries}
    (fresh : ∀ a ∈ items, entries.get? (entryOf a).1 = none) :
    items.foldlM add entries = some (entries ++ items.map entryOf) := by
  induction items generalizing entries with
  | nil => simp
  | cons a items ih =>
      obtain ⟨alone, nodup⟩ := List.nodup_cons.mp nodup
      have fresh' : ∀ b ∈ items, Entries.get? (entries ++ [entryOf a]) (entryOf b).1 = none := by
        intro b mem
        have other : (entryOf b).1 ≠ (entryOf a).1 := fun same =>
          alone (List.mem_map.mpr ⟨b, mem, same⟩)
        have absent : entries.lookup (entryOf b).1 = none := fresh b (.tail _ mem)
        rw [Entries.get?, List.lookup_append, absent, Option.none_or, List.lookup_eq_none_iff]
        simpa using other
      have rest := ih (fun b mem => adds b (.tail _ mem)) nodup fresh'
      rw [List.foldlM_cons, adds a (.head _) entries (fresh a (.head _))]
      show items.foldlM add (entries ++ [entryOf a]) = _
      rw [rest, List.append_assoc]
      rfl

/-- The entry that a line of a section makes. -/
def scalarOf (entry : String × Scalar) : String × Value :=
  (entry.1, .scalar entry.2)

/-- The entry that a section makes. -/
def tableOf (s : String × List (String × Scalar)) : String × Value :=
  (s.1, .table .header (s.2.map scalarOf))

theorem assignAll_eq {entries : List (String × Scalar)} (nodup : (entries.map (·.1)).Nodup) :
    Entries.assignAll [] (entries.map assignmentOf) = some (entries.map scalarOf) := by
  rw [Entries.assignAll, List.foldlM_map]
  refine foldlM_append (fun entry _ found absent => ?_) nodup fun _ _ => rfl
  show found.add? entry.1 (.scalar entry.2) = _
  have absent : found.get? entry.1 = none := absent
  rw [Entries.add?, absent]
  rfl

theorem ofStatements_eq {document : List (String × List (String × Scalar))}
    (sections : (document.map (·.1)).Nodup) (keys : ∀ s ∈ document, (s.2.map (·.1)).Nodup) :
    ofStatements (document.flatMap statementsOf) = some (document.map tableOf) := by
  rw [ofStatements, split_statementsOf]
  show (document.map sectionOf).foldlM Entries.include [] = _
  rw [List.foldlM_map]
  refine foldlM_append (fun s mem found absent => ?_) sections fun _ _ => rfl
  have absent : found.get? s.1 = none := absent
  show Entries.include found (sectionOf s) = _
  simp only [Entries.include, sectionOf, Entries.within, absent, assignAll_eq (keys s mem)]
  rfl

/-- A document whose names may stand without quotes, and in which no name is given twice. -/
structure IsNamed (document : List (String × List (String × Scalar))) : Prop where
  bare : IsBare document
  sections : (document.map (·.1)).Nodup
  keys : ∀ s ∈ document, (s.2.map (·.1)).Nodup

/-- A document that was written is read as the tables of its sections, in their order. -/
theorem read?_of_write? {document : List (String × List (String × Scalar))}
    (named : IsNamed document) {text : String} (written : write? document = some text) :
    read? text = some (document.map tableOf) := by
  obtain ⟨texts, shown, same⟩ := Option.bind_eq_some_iff.mp written
  obtain rfl := Option.some.inj same
  rw [read?, (spells_intercalate named.bare shown).statements?]
  exact ofStatements_eq named.sections named.keys

/-! ## Documents that can be written -/

theorem exists_mapM {α β : Type} {f : α → Option β} {items : List α}
    (each : ∀ a ∈ items, ∃ b, f a = some b) : ∃ bs, items.mapM f = some bs := by
  induction items with
  | nil => exact ⟨[], rfl⟩
  | cons a items ih =>
      obtain ⟨b, first⟩ := each a (.head _)
      obtain ⟨bs, others⟩ := ih fun a mem => each a (.tail _ mem)
      rw [List.mapM_cons, first, others]
      exact ⟨b :: bs, rfl⟩

/-- A value that a document can tell; no number beyond 64 bits with a sign is one. -/
def Scalar.InRange : Scalar → Prop
  | .integer n => -2 ^ 63 ≤ n ∧ n < 2 ^ 63
  | _ => True

theorem Scalar.InRange.exists_write? {value : Scalar} (inRange : value.InRange) :
    ∃ text, value.write? = some text := by
  cases value with
  | text value => exact ⟨_, rfl⟩
  | integer n =>
      obtain ⟨least, less⟩ := inRange
      have range : (-2 ^ 63 ≤ n && n < 2 ^ 63) = true := by
        rw [Bool.and_eq_true, decide_eq_true_eq, decide_eq_true_eq]
        exact ⟨least, less⟩
      rw [Scalar.write?, if_pos range]
      exact ⟨_, rfl⟩
  | boolean value => exact ⟨_, rfl⟩

/-- A document is written if each of its values can be told. -/
theorem exists_write? {document : List (String × List (String × Scalar))}
    (each : ∀ s ∈ document, ∀ entry ∈ s.2, entry.2.InRange) :
    ∃ text, write? document = some text := by
  have parts (s) (mem : s ∈ document) : ∃ text, sectionText? s = some text := by
    have line (entry) (mem' : entry ∈ s.2) : ∃ text, assignmentLine? entry = some text := by
      obtain ⟨text, written⟩ := (each s mem entry mem').exists_write?
      rw [assignmentLine?, written]
      exact ⟨_, rfl⟩
    obtain ⟨lines, written⟩ := exists_mapM line
    rw [sectionText?, written]
    exact ⟨_, rfl⟩
  obtain ⟨texts, written⟩ := exists_mapM parts
  rw [write?, written]
  exact ⟨_, rfl⟩

end RemoteCall.Toml
