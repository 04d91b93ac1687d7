import RemoteCall.Toml.Token
import RemoteCall.Toml.Writer

/-! # Strings that are written and read again

    A string is written in one of four forms.  Between double quotes it has
    escapes, and whatever the string is, the reader undoes them
    (`quoted_escaped`, `longQuoted_escaped`).  Between single quotes it stands
    as it is, which is done only where that reads back (`literal_append`,
    `longLiteral_append`).

    Three quotes end a long string, so its content never has three of them side
    by side.  It may have two, also at the end, where the closing quotes follow:
    the induction is on the content, with the quotes that stand in front of it
    as a part of what is read. -/

namespace RemoteCall.Toml

/-! ## Characters -/

theorem withChar_some (c : Char) (content rest : List Char) :
    withChar c (some (content, rest)) = some (c :: content, rest) :=
  rfl

theorem isPlain_of_not_isControl {c : Char} (escape : isControl c = false) (line : c ≠ '\n') :
    isPlain c = true := by
  have other : c ≠ '\t' → ' ' ≤ c ∧ c ≠ '\x7f' := by
    intro tab
    simpa [isControl, tab, line] using escape
  rw [isPlain, Bool.or_eq_true, decide_eq_true_eq, Bool.and_eq_true, decide_eq_true_eq,
    decide_eq_true_eq]
  exact Decidable.or_iff_not_imp_left.mpr other

/-- The digits of a control character spell its number. -/
theorem hexChar?_hexDigits : ∀ n : Fin 128, (hexDigits n.val).length = 4
    ∧ hexChar? (hexDigits n.val) = some (Char.ofNat n.val) := by
  decide

theorem toNat_lt_of_isControl {c : Char} (control : isControl c = true) : c.toNat < 128 := by
  simp only [isControl, Bool.or_eq_true, Bool.and_eq_true, decide_eq_true_eq] at control
  rcases control with ⟨⟨low, -⟩, -⟩ | rfl
  · exact Nat.lt_trans low (by decide)
  · decide

/-- Escapes stand for characters, wherever they are read. -/
structure ReadsEscapes (reader : List Char → Option (List Char × List Char)) : Prop where
  short : ∀ e c rest, shortEscape? e = some c →
    reader ('\\' :: e :: rest) = withChar c (reader rest)
  number : ∀ digits c rest, digits.length = 4 → hexChar? digits = some c →
    reader ('\\' :: 'u' :: digits ++ rest) = withChar c (reader rest)

theorem shortEscape?_letters {e c : Char} (short : shortEscape? e = some c) :
    e ≠ 'u' ∧ e ≠ 'U' ∧ isBlank e = false ∧ e ≠ '\n' ∧ e ≠ '\x0d' := by
  rw [shortEscape?.eq_def] at short
  split at short <;> first | decide | exact nomatch short

theorem readsEscapes_quoted : ReadsEscapes quoted where
  short := by
    intro e c rest short
    obtain ⟨four, eight, -⟩ := shortEscape?_letters short
    rw [quoted.eq_def]
    split <;> grind
  number := by
    intro digits c rest length spelled
    match digits, length with
    | [x, y, z, w], _ =>
      rw [quoted.eq_def]
      show (hexChar? [x, y, z, w]).bind (fun c => withChar c (quoted rest)) = _
      rw [spelled, Option.bind_some]

theorem readsEscapes_longQuoted : ReadsEscapes (longQuoted false) where
  short := by
    intro e c rest short
    obtain ⟨four, eight, blank, line, carriage⟩ := shortEscape?_letters short
    have inside : endsLine (e :: rest) = false := by
      rw [endsLine, List.dropWhile_cons_of_neg (by simp [blank])]
      split <;> simp_all
    rw [longQuoted.eq_def]
    split <;> grind
  number := by
    intro digits c rest length spelled
    match digits, length with
    | [x, y, z, w], _ =>
      rw [longQuoted.eq_def]
      show (hexChar? [x, y, z, w]).bind (fun c => withChar c (longQuoted false rest)) = _
      rw [spelled, Option.bind_some]

/-- What is written for a character that needs an escape is read as this character. -/
theorem ReadsEscapes.escape? {reader : List Char → Option (List Char × List Char)}
    (reads : ReadsEscapes reader) {long : Bool} {c : Char} {spelling : List Char}
    (escape : escape? long c = some spelling) (rest : List Char) :
    reader (spelling ++ rest) = withChar c (reader rest) := by
  have short (letter : Char) (same : shortEscape? letter = some c)
      (spelled : some ['\\', letter] = some spelling) :
      reader (spelling ++ rest) = withChar c (reader rest) := by
    obtain rfl := Option.some.inj spelled
    exact reads.short letter c rest same
  rw [Toml.escape?] at escape
  split at escape
  · next backspace => exact short 'b' (by rw [backspace]; rfl) escape
  split at escape
  · next tab => exact short 't' (by rw [tab]; rfl) escape
  split at escape
  · next line =>
      split at escape
      · exact nomatch escape
      · exact short 'n' (by rw [line]; rfl) escape
  split at escape
  · next feed => exact short 'f' (by rw [feed]; rfl) escape
  split at escape
  · next carriage => exact short 'r' (by rw [carriage]; rfl) escape
  split at escape
  · next backslash => exact short '\\' (by rw [backslash]; rfl) escape
  split at escape
  · next control =>
      obtain rfl := Option.some.inj escape
      obtain ⟨length, spelled⟩ := hexChar?_hexDigits ⟨c.toNat, toNat_lt_of_isControl control⟩
      rw [Char.ofNat_toNat] at spelled
      exact reads.number _ c rest length spelled
  · exact nomatch escape

/-- A character that needs no escape is plain, or the end of a line in a string of several lines. -/
theorem isPlain_of_escape?_eq_none {long : Bool} {c : Char} (none : escape? long c = none) :
    c ≠ '\\' ∧ (isPlain c = true ∨ long = true ∧ c = '\n') := by
  rw [escape?] at none
  grind [isPlain_of_not_isControl]

/-! ## Strings on one line -/

theorem quoted_plain {c : Char} (plain : isPlain c = true) (quote : c ≠ '"') (backslash : c ≠ '\\')
    (rest : List Char) : quoted (c :: rest) = withChar c (quoted rest) := by
  rw [quoted.eq_def]
  split <;> simp_all

/-- Every string is read back from its escaped form. -/
theorem quoted_escaped (cs rest : List Char) :
    quoted (escaped false 0 cs ++ '"' :: rest) = some (cs, rest) := by
  induction cs with
  | nil => rw [escaped, List.nil_append, quoted]
  | cons c cs ih =>
      rw [escaped]
      split
      · next quote =>
          subst quote
          rw [if_neg (by decide), List.cons_append, List.cons_append,
            readsEscapes_quoted.short '"' '"' _ rfl, ih, withChar_some]
      · next quote =>
          split
          · next spelling escape =>
              rw [List.append_assoc, readsEscapes_quoted.escape? escape, ih, withChar_some]
          · next none =>
              obtain ⟨backslash, plain⟩ := isPlain_of_escape?_eq_none none
              have plain : isPlain c = true := by simpa using plain
              rw [List.cons_append, quoted_plain plain quote backslash, ih, withChar_some]

theorem literal_append {cs : List Char} (plain : ∀ c ∈ cs, isPlain c = true) (quote : '\'' ∉ cs)
    (rest : List Char) : literal (cs ++ '\'' :: rest) = some (cs, rest) := by
  induction cs with
  | nil => rw [List.nil_append, literal]
  | cons c cs ih =>
      obtain ⟨other, quote⟩ := not_or.mp (mt List.mem_cons.mpr quote)
      have ih := ih (fun d mem => plain d (.tail c mem)) quote
      rw [List.cons_append, literal.eq_def]
      split
      · next same => exact absurd (List.cons.inj same).1.symm other
      · next d tail _ same =>
          obtain ⟨rfl, rfl⟩ := List.cons.inj same
          rw [if_pos (plain _ (.head _)), ih, withChar_some]
      · next none => exact nomatch none

/-! ## Strings of several lines -/

/-- A reader of strings between three quotes: a quote that two more do not follow belongs to the
string, and so do up to two in front of the closing ones. -/
structure ReadsQuotes (quote : Char) (reader : List Char → Option (List Char × List Char)) :
    Prop where
  single : ∀ rest, ¬ [quote, quote] <+: rest →
    reader (quote :: rest) = withChar quote (reader rest)
  closing : ∀ run ≤ 2, ∀ rest : List Char, rest.head? ≠ some quote →
    reader (List.replicate run quote ++ ([quote, quote, quote] ++ rest))
      = some (List.replicate run quote, rest)

theorem readsQuotes_longQuoted : ReadsQuotes '"' (longQuoted false) where
  single := by
    intro rest few
    have plain : isPlain '"' = true := by decide
    rw [longQuoted.eq_def]
    split <;> grind
  closing := by
    intro run few rest other
    obtain rfl | rfl | rfl : run = 0 ∨ run = 1 ∨ run = 2 := by omega
    all_goals
      rw [longQuoted.eq_def]
      simp only [List.replicate]
      split <;> grind

theorem readsQuotes_longLiteral : ReadsQuotes '\'' longLiteral where
  single := by
    intro rest few
    have plain : isPlain '\'' = true := by decide
    rw [longLiteral.eq_def]
    split <;> grind
  closing := by
    intro run few rest other
    obtain rfl | rfl | rfl : run = 0 ∨ run = 1 ∨ run = 2 := by omega
    all_goals
      rw [longLiteral.eq_def]
      simp only [List.replicate]
      split <;> grind

/-- Up to two quotes belong to the string if something else follows them. -/
theorem ReadsQuotes.within {quote : Char} {reader : List Char → Option (List Char × List Char)}
    (reads : ReadsQuotes quote reader) {run : Nat} (few : run ≤ 2) {c : Char} (other : c ≠ quote)
    {text content rest : List Char} (read : reader (c :: text) = some (content, rest)) :
    reader (List.replicate run quote ++ c :: text)
      = some (List.replicate run quote ++ content, rest) := by
  have first : ¬ [quote, quote] <+: c :: text := fun quotes =>
    other (List.cons_prefix_cons.mp quotes).1.symm
  have second : ¬ [quote, quote] <+: quote :: c :: text := fun quotes =>
    other (List.cons_prefix_cons.mp (List.cons_prefix_cons.mp quotes).2).1.symm
  obtain rfl | rfl | rfl : run = 0 ∨ run = 1 ∨ run = 2 := by omega
  · exact read
  · show reader (quote :: c :: text) = _
    rw [reads.single _ first, read]
    rfl
  · show reader (quote :: quote :: c :: text) = _
    rw [reads.single _ second, reads.single _ first, read]
    rfl

theorem replicate_append_cons (run : Nat) (c : Char) (cs : List Char) :
    List.replicate run c ++ c :: cs = List.replicate (run + 1) c ++ cs := by
  rw [List.replicate_succ', List.append_assoc, List.singleton_append]

theorem longQuoted_line (rest : List Char) :
    longQuoted false ('\n' :: rest) = withChar '\n' (longQuoted false rest) := by
  rw [longQuoted.eq_def]
  split <;> grind

theorem longQuoted_plain {c : Char} (plain : isPlain c = true) (quote : c ≠ '"')
    (backslash : c ≠ '\\') (rest : List Char) :
    longQuoted false (c :: rest) = withChar c (longQuoted false rest) := by
  have carriage : c ≠ '\x0d' := by
    rintro rfl
    exact absurd plain (by decide)
  rw [longQuoted.eq_def]
  split <;> grind

/-- What is written for a character that needs an escape begins with a backslash. -/
theorem exists_of_escape? {long : Bool} {c : Char} {spelling : List Char}
    (escape : escape? long c = some spelling) : ∃ tail, spelling = '\\' :: tail := by
  rw [escape?] at escape
  grind

/-- Every string is read back from its escaped form. -/
theorem longQuoted_escaped (cs : List Char) {rest : List Char} (other : rest.head? ≠ some '"')
    {run : Nat} (few : run ≤ 2) :
    longQuoted false (List.replicate run '"' ++ (escaped true run cs ++ (['"', '"', '"'] ++ rest)))
      = some (List.replicate run '"' ++ cs, rest) := by
  induction cs generalizing run with
  | nil =>
      rw [escaped, List.nil_append, List.append_nil]
      exact readsQuotes_longQuoted.closing run few rest other
  | cons c cs ih =>
      -- what follows is read when no quotes stand open
      have after : longQuoted false (escaped true 0 cs ++ (['"', '"', '"'] ++ rest))
          = some (cs, rest) := ih (Nat.zero_le 2)
      rw [escaped]
      by_cases quote : c = '"'
      · subst quote
        rw [if_pos rfl]
        by_cases more : run < 2
        · rw [if_pos (show run < if true then 2 else 0 from more), List.cons_append,
            replicate_append_cons, ih more, replicate_append_cons]
        · rw [if_neg (show ¬ run < if true then 2 else 0 from more)]
          refine readsQuotes_longQuoted.within few (by decide) ?_
          exact (readsEscapes_longQuoted.short '"' '"' _ rfl).trans (congrArg _ after)
      · rw [if_neg quote]
        cases escape : escape? true c with
        | some spelling =>
            have read := readsEscapes_longQuoted.escape? escape
              (escaped true 0 cs ++ (['"', '"', '"'] ++ rest))
            obtain ⟨tail, rfl⟩ := exists_of_escape? escape
            rw [List.append_assoc]
            exact readsQuotes_longQuoted.within few (by decide) (read.trans (congrArg _ after))
        | none =>
            obtain ⟨backslash, plain⟩ := isPlain_of_escape?_eq_none escape
            refine readsQuotes_longQuoted.within few quote ?_
            have read : longQuoted false (c :: (escaped true 0 cs ++ (['"', '"', '"'] ++ rest)))
                = withChar c
                    (longQuoted false (escaped true 0 cs ++ (['"', '"', '"'] ++ rest))) := by
              rcases plain with plain | ⟨-, rfl⟩
              · exact longQuoted_plain plain quote backslash _
              · exact longQuoted_line _
            exact read.trans (congrArg _ after)

theorem longLiteral_line (rest : List Char) :
    longLiteral ('\n' :: rest) = withChar '\n' (longLiteral rest) := by
  rw [longLiteral.eq_def]
  split <;> grind

theorem longLiteral_plain {c : Char} (plain : isPlain c = true) (quote : c ≠ '\'')
    (rest : List Char) : longLiteral (c :: rest) = withChar c (longLiteral rest) := by
  have carriage : c ≠ '\x0d' := by
    rintro rfl
    exact absurd plain (by decide)
  rw [longLiteral.eq_def]
  split <;> grind

theorem le_longestRun (c : Char) (before : Nat) (cs : List Char) :
    before ≤ longestRun c before cs := by
  induction cs generalizing before with
  | nil => exact Nat.le_refl before
  | cons d cs ih =>
      rw [longestRun]
      split
      · exact Nat.le_trans (Nat.le_succ before) (ih (before + 1))
      · exact Nat.le_max_left ..

theorem not_mem_of_longestRun {c : Char} {before : Nat} {cs : List Char}
    (none : longestRun c before cs = 0) : c ∉ cs := by
  induction cs generalizing before with
  | nil => exact List.not_mem_nil
  | cons d cs ih =>
      rw [longestRun] at none
      split at none
      · have long := le_longestRun c (before + 1) cs
        omega
      · next other =>
          have rest : longestRun c 0 cs = 0 := by omega
          exact fun mem => (List.mem_cons.mp mem).elim (Ne.symm other) (ih rest)

/-- A string without escapes and without three quotes side by side is read back as it stands. -/
theorem longLiteral_append {cs : List Char} (escape : ∀ c ∈ cs, isControl c = false)
    {rest : List Char} (other : rest.head? ≠ some '\'') {run : Nat}
    (few : longestRun '\'' run cs ≤ 2) :
    longLiteral (List.replicate run '\'' ++ (cs ++ (['\'', '\'', '\''] ++ rest)))
      = some (List.replicate run '\'' ++ cs, rest) := by
  induction cs generalizing run with
  | nil =>
      rw [List.nil_append, List.append_nil]
      exact readsQuotes_longLiteral.closing run few rest other
  | cons c cs ih =>
      have escape' := fun d mem => escape d (.tail c mem)
      rw [longestRun] at few
      by_cases quote : c = '\''
      · subst quote
        rw [if_pos rfl] at few
        rw [List.cons_append, replicate_append_cons, ih escape' few, replicate_append_cons]
      · rw [if_neg quote] at few
        have after : longLiteral (cs ++ (['\'', '\'', '\''] ++ rest)) = some (cs, rest) :=
          ih escape' (Nat.le_trans (Nat.le_max_right ..) few)
        refine readsQuotes_longLiteral.within (Nat.le_trans (Nat.le_max_left ..) few) quote ?_
        have read : longLiteral (c :: (cs ++ (['\'', '\'', '\''] ++ rest)))
            = withChar c (longLiteral (cs ++ (['\'', '\'', '\''] ++ rest))) := by
          by_cases line : c = '\n'
          · subst line
            exact longLiteral_line _
          · exact longLiteral_plain (isPlain_of_not_isControl (escape c (.head _)) line) quote _
        exact read.trans (congrArg _ after)

end RemoteCall.Toml
