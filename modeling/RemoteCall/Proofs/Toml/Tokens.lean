import RemoteCall.Proofs.Decimal.Printed
import RemoteCall.Proofs.Toml.Strings
import RemoteCall.Toml.Reader

/-! # The parts of a line that are written and read again

    A reader finds a value in front of what follows, and leaves that: a key
    without quotes (`key_bare`), a string in the form that was chosen for it
    (`string_quote`), an integer (`number_toString`), a truth value.  A value
    tells its own end, but for an integer, behind which the end of a line has to
    stand (`value_write`). -/

namespace RemoteCall.Toml

/-- Once a reader has found a value, the readers behind it go on with it. -/
theorem bind_of_some {α β : Type} {x : Reader α} {f : α → Reader β} {cs rest : List Char} {a : α}
    (found : x cs = some (a, rest)) : (x >>= f) cs = f a rest := by
  show (x cs >>= fun p => f p.1 p.2) = f a rest
  rw [found]
  rfl

/-! ## Marks and blanks -/

theorem accept_append (expected rest : List Char) :
    accept expected (expected ++ rest) = some (true, rest) := by
  rw [accept, if_pos (List.isPrefixOf_iff_prefix.mpr (List.prefix_append ..)), List.drop_left]

theorem accept_of_not_isPrefix {expected cs : List Char} (other : ¬ expected <+: cs) :
    accept expected cs = some (false, cs) := by
  rw [accept, if_neg (mt List.isPrefixOf_iff_prefix.mp other)]

/-- No mark stands in front of another character than its first one. -/
theorem accept_of_head?_ne {c : Char} {cs : List Char} (other : cs.head? ≠ some c)
    (more : List Char) : accept (c :: more) cs = some (false, cs) := by
  refine accept_of_not_isPrefix ?_
  rintro ⟨tail, rfl⟩
  exact other rfl

theorem expect_append (expected rest : List Char) :
    expect expected (expected ++ rest) = some ((), rest) := by
  rw [expect, bind_of_some (accept_append expected rest)]
  rfl

theorem accept_cons (c : Char) (rest : List Char) : accept [c] (c :: rest) = some (true, rest) :=
  accept_append [c] rest

theorem expect_cons (c : Char) (rest : List Char) : expect [c] (c :: rest) = some ((), rest) :=
  expect_append [c] rest

theorem acceptNewline_line (rest : List Char) :
    acceptNewline ('\n' :: rest) = some (true, rest) := by
  rw [acceptNewline, bind_of_some (accept_cons '\n' rest)]
  rfl

theorem acceptNewline_of_head?_ne {cs : List Char} (line : cs.head? ≠ some '\n')
    (carriage : cs.head? ≠ some '\x0d') : acceptNewline cs = some (false, cs) := by
  rw [acceptNewline, bind_of_some (accept_of_head?_ne line [])]
  exact accept_of_head?_ne carriage ['\n']

/-! ## Strings -/

theorem string_of_quoted {cs content rest : List Char} (few : ¬ ['"', '"'] <+: cs)
    (read : quoted cs = some (content, rest)) :
    string ('"' :: cs) = some (String.ofList content, rest) := by
  have first : ¬ ['"', '"', '"'] <+: '"' :: cs := fun h => few (List.cons_prefix_cons.mp h).2
  rw [string, bind_of_some (accept_of_not_isPrefix first)]
  show (accept ['"'] >>= _) ('"' :: cs) = _
  rw [bind_of_some (accept_cons '"' cs)]
  exact bind_of_some read

theorem string_of_literal {cs content rest : List Char} (few : ¬ ['\'', '\''] <+: cs)
    (read : literal cs = some (content, rest)) :
    string ('\'' :: cs) = some (String.ofList content, rest) := by
  have third : ¬ ['\'', '\'', '\''] <+: '\'' :: cs := fun h => few (List.cons_prefix_cons.mp h).2
  rw [string, bind_of_some (accept_of_head?_ne (by simp) _)]
  show (accept ['"'] >>= _) ('\'' :: cs) = _
  rw [bind_of_some (accept_of_head?_ne (by simp) _)]
  show (accept ['\'', '\'', '\''] >>= _) ('\'' :: cs) = _
  rw [bind_of_some (accept_of_not_isPrefix third)]
  show (expect ['\''] >>= _) ('\'' :: cs) = _
  rw [bind_of_some (expect_cons '\'' cs)]
  exact bind_of_some read

theorem string_of_longQuoted {cs text content rest : List Char} {line : Bool}
    (newline : acceptNewline cs = some (line, text))
    (read : longQuoted false text = some (content, rest)) :
    string (['"', '"', '"'] ++ cs) = some (String.ofList content, rest) := by
  rw [string, bind_of_some (accept_append ['"', '"', '"'] cs)]
  show (acceptNewline >>= _) cs = _
  rw [bind_of_some newline]
  exact bind_of_some read

theorem string_of_longLiteral {cs text content rest : List Char} {line : Bool}
    (newline : acceptNewline cs = some (line, text))
    (read : longLiteral text = some (content, rest)) :
    string (['\'', '\'', '\''] ++ cs) = some (String.ofList content, rest) := by
  rw [string, bind_of_some (accept_of_head?_ne (by simp) _)]
  show (accept ['"'] >>= _) (['\'', '\'', '\''] ++ cs) = _
  rw [bind_of_some (accept_of_head?_ne (by simp) _)]
  show (accept ['\'', '\'', '\''] >>= _) (['\'', '\'', '\''] ++ cs) = _
  rw [bind_of_some (accept_append ['\'', '\'', '\''] cs)]
  show (acceptNewline >>= _) cs = _
  rw [bind_of_some newline]
  exact bind_of_some read

/-- A string stands between single quotes only where it reads back as it stands. -/
theorem formOf_eq_literal {cs : List Char} (form : formOf cs = .literal) :
    (∀ c ∈ cs, isPlain c = true) ∧ '\'' ∉ cs ∧ cs ≠ [] := by
  have some : cs ≠ [] := by
    rintro rfl
    exact absurd form (by decide)
  rw [formOf] at form
  split at form
  · exact nomatch form
  split at form
  · next alone =>
      simp only [Bool.and_eq_true, Bool.not_eq_true', List.any_eq_false, decide_eq_true_eq,
        List.contains_eq_mem, decide_eq_false_iff_not] at alone
      obtain ⟨⟨escape, quotes⟩, lines⟩ := alone
      refine ⟨fun c mem => ?_, not_mem_of_longestRun quotes, some⟩
      exact isPlain_of_not_isControl (Bool.eq_false_iff.mpr (escape c mem)) fun line =>
        lines (line ▸ mem)
  split at form
  · exact nomatch form
  split at form
  · exact nomatch form
  split at form
  · exact nomatch form
  · exact nomatch form

theorem formOf_eq_longLiteral {cs : List Char} (form : formOf cs = .longLiteral) :
    (∀ c ∈ cs, isControl c = false) ∧ runOf '\'' cs ≤ 2 := by
  rw [formOf] at form
  split at form
  · exact nomatch form
  split at form
  · exact nomatch form
  split at form
  · exact nomatch form
  split at form
  · next alone =>
      simp only [Bool.and_eq_true, Bool.not_eq_true', List.any_eq_false, decide_eq_true_eq]
        at alone
      exact ⟨fun c mem => Bool.eq_false_iff.mpr (alone.1 c mem), alone.2⟩
  split at form
  · exact nomatch form
  · exact nomatch form

/-- What is written between double quotes on one line does not begin with a quote. -/
theorem not_prefix_escaped (cs : List Char) {rest : List Char} (other : rest.head? ≠ some '"') :
    ¬ ['"', '"'] <+: escaped false 0 cs ++ '"' :: rest := by
  cases cs with
  | nil =>
      rw [escaped, List.nil_append, List.cons_prefix_cons]
      rintro ⟨-, tail, rfl⟩
      exact other rfl
  | cons c cs =>
      rw [escaped]
      split
      · rw [if_neg (by decide), List.cons_append, List.cons_prefix_cons]
        exact fun same => absurd same.1 (by decide)
      · next quote =>
          split
          · next spelling escape =>
              obtain ⟨tail, rfl⟩ := exists_of_escape? escape
              exact fun same => absurd (List.cons_prefix_cons.mp same).1 (by decide)
          · exact fun same => quote (List.cons_prefix_cons.mp same).1.symm

/-- A string without the end of a line does not begin with one when it is written. -/
theorem head?_escaped {cs : List Char} (line : '\n' ∉ cs) (rest : List Char) :
    (escaped true 0 cs ++ '"' :: rest).head? ≠ some '\n'
      ∧ (escaped true 0 cs ++ '"' :: rest).head? ≠ some '\x0d' := by
  cases cs with
  | nil => simp [escaped]
  | cons c cs =>
      have first : c ≠ '\n' := fun same => line (same ▸ .head _)
      rw [escaped]
      split
      · next quote => simp [quote]
      · split
        · next spelling escape =>
            obtain ⟨tail, rfl⟩ := exists_of_escape? escape
            simp
        · next none =>
            have carriage : c ≠ '\x0d' := by
              rintro rfl
              exact absurd none (by decide)
            simp [first, carriage]

/-- The end of a line stands right behind three quotes exactly if the string has one. -/
theorem acceptNewline_written {cs : List Char} {content : List Char}
    (line : '\n' ∉ cs → content.head? ≠ some '\n' ∧ content.head? ≠ some '\x0d') :
    ∃ taken, acceptNewline ((if cs.contains '\n' then ['\n'] else []) ++ content)
      = some (taken, content) := by
  by_cases lines : '\n' ∈ cs
  · rw [if_pos (List.contains_iff_mem.mpr lines)]
    exact ⟨true, acceptNewline_line content⟩
  · rw [if_neg (mt List.contains_iff_mem.mp lines)]
    obtain ⟨first, second⟩ := line lines
    exact ⟨false, acceptNewline_of_head?_ne first second⟩

/-- Every string is read back in the form in which it is written. -/
theorem string_quote (s : String) {rest : List Char} (double : rest.head? ≠ some '"')
    (single : rest.head? ≠ some '\'') :
    string ((quote s).toList ++ rest) = some (s, rest) := by
  rw [quote, String.toList_ofList]
  cases form : formOf s.toList with
  | quoted =>
      have read := string_of_quoted (not_prefix_escaped s.toList double)
        (quoted_escaped s.toList rest)
      rw [String.ofList_toList] at read
      rw [← read]
      simp [Form.write, Form.quotes]
  | literal =>
      obtain ⟨plain, quote, some⟩ := formOf_eq_literal form
      have few : ¬ ['\'', '\''] <+: s.toList ++ '\'' :: rest := by
        obtain ⟨c, cs, same⟩ := List.exists_cons_of_ne_nil some
        rw [same] at quote ⊢
        exact fun both => quote ((List.cons_prefix_cons.mp both).1 ▸ .head _)
      have read := string_of_literal few (literal_append plain quote rest)
      rw [String.ofList_toList] at read
      rw [← read]
      simp [Form.write, Form.quotes]
  | longQuoted =>
      obtain ⟨taken, newline⟩ := acceptNewline_written fun line =>
        head?_escaped line ('"' :: '"' :: rest)
      have read := string_of_longQuoted newline
        (longQuoted_escaped s.toList double (Nat.zero_le 2))
      rw [List.replicate_zero, List.nil_append, String.ofList_toList] at read
      rw [← read]
      simp [Form.write, Form.quotes]
  | longLiteral =>
      obtain ⟨escape, few⟩ := formOf_eq_longLiteral form
      have first (line : '\n' ∉ s.toList) :
          (s.toList ++ (['\'', '\'', '\''] ++ rest)).head? ≠ some '\n'
            ∧ (s.toList ++ (['\'', '\'', '\''] ++ rest)).head? ≠ some '\x0d' := by
        cases same : s.toList with
        | nil => simp
        | cons c cs =>
            rw [same] at line escape
            have control := escape c (.head _)
            constructor
            · rintro ⟨⟩
              exact line (.head _)
            · rintro ⟨⟩
              exact absurd control (by decide)
      obtain ⟨taken, newline⟩ := acceptNewline_written first
      have read := string_of_longLiteral newline
        (longLiteral_append escape single few)
      rw [List.replicate_zero, List.nil_append, String.ofList_toList] at read
      rw [← read]
      simp [Form.write, Form.quotes]

/-! ## Keys -/

theorem eq_of_isBlank {c : Char} (blank : isBlank c = true) : c = ' ' ∨ c = '\t' := by
  rwa [isBlank, Bool.or_eq_true, decide_eq_true_eq, decide_eq_true_eq] at blank

/-- What is taken ends in front of a character that does not fulfil the condition. -/
theorem takeAll_append {condition : Char → Bool} {front rest : List Char}
    (all : ∀ c ∈ front, condition c = true) (stop : ∀ c ∈ rest.head?, condition c = false) :
    takeAll condition (front ++ rest) = some (front, rest) := by
  rw [takeAll, List.takeWhile_append_of_pos all, List.dropWhile_append_of_pos all]
  cases rest with
  | nil => simp
  | cons c rest =>
      have stop := stop c rfl
      rw [List.takeWhile_cons_of_neg (by simp [stop]), List.dropWhile_cons_of_neg (by simp [stop]),
        List.append_nil]

theorem skipBlanks_append {blanks rest : List Char} (all : ∀ c ∈ blanks, isBlank c = true)
    (stop : ∀ c ∈ rest.head?, isBlank c = false) :
    skipBlanks (blanks ++ rest) = some ((), rest) := by
  rw [skipBlanks, bind_of_some (takeAll_append all stop)]
  rfl

/-- No blank is skipped in front of a character that is none. -/
theorem skipBlanks_none {cs : List Char} (stop : ∀ c ∈ cs.head?, isBlank c = false) :
    skipBlanks cs = some ((), cs) :=
  @skipBlanks_append [] cs nofun stop

/-- A name that may stand without quotes. -/
structure IsBareKey (name : List Char) : Prop where
  bare : ∀ c ∈ name, isBare c = true
  nonempty : name ≠ []

theorem isBareKey_iff (name : List Char) :
    IsBareKey name ↔ (name.all isBare && !name.isEmpty) = true := by
  rw [Bool.and_eq_true, List.all_eq_true, Bool.not_eq_true', List.isEmpty_eq_false_iff]
  exact ⟨fun isKey => ⟨isKey.bare, isKey.nonempty⟩, fun both => ⟨both.1, both.2⟩⟩

instance (name : List Char) : Decidable (IsBareKey name) :=
  decidable_of_iff _ (isBareKey_iff name).symm

/-- A bare name does not begin with a character that may not stand in it. -/
theorem IsBareKey.head?_ne {name : List Char} (isKey : IsBareKey name) {c : Char}
    (other : isBare c = false) (rest : List Char) : (name ++ rest).head? ≠ some c := by
  obtain ⟨d, tail, rfl⟩ := List.exists_cons_of_ne_nil isKey.nonempty
  rintro ⟨⟩
  exact nomatch other.symm.trans (isKey.bare c (.head _))

theorem IsBareKey.not_blank {name : List Char} (isKey : IsBareKey name) (rest : List Char) :
    ∀ c ∈ (name ++ rest).head?, isBlank c = false := by
  intro c first
  refine Bool.eq_false_iff.mpr fun blank => ?_
  rcases eq_of_isBlank blank with rfl | rfl
  · exact isKey.head?_ne (by decide) rest first
  · exact isKey.head?_ne (by decide) rest first

theorem simpleKey_bare {name rest : List Char} (isKey : IsBareKey name)
    (stop : ∀ c ∈ rest.head?, isBare c = false) :
    simpleKey (name ++ rest) = some (String.ofList name, rest) := by
  rw [simpleKey, bind_of_some (accept_of_head?_ne (isKey.head?_ne (by decide) rest) [])]
  show (accept ['\''] >>= _) (name ++ rest) = _
  rw [bind_of_some (accept_of_head?_ne (isKey.head?_ne (by decide) rest) [])]
  show (takeAll isBare >>= _) (name ++ rest) = _
  rw [bind_of_some (takeAll_append isKey.bare stop), if_neg (by simpa using isKey.nonempty)]
  rfl

/-- A bare name alone is a key; blanks behind it are skipped. -/
theorem key_bare {name blanks rest : List Char} (isKey : IsBareKey name)
    (all : ∀ c ∈ blanks, isBlank c = true)
    (stop : ∀ c ∈ rest.head?, isBare c = false ∧ isBlank c = false ∧ c ≠ '.') :
    key (name ++ (blanks ++ rest)) = some (([], String.ofList name), rest) := by
  have ends : ∀ c ∈ (blanks ++ rest).head?, isBare c = false := by
    intro c first
    cases blanks with
    | nil => exact (stop c first).1
    | cons d blanks =>
        obtain rfl := Option.some.inj first
        rcases eq_of_isBlank (all d (.head _)) with rfl | rfl <;> decide
  have dot : rest.head? ≠ some '.' := fun first => (stop _ first).2.2 rfl
  have item : items (do skipBlanks; let k ← simpleKey; skipBlanks; return k) ['.']
      (name ++ (blanks ++ rest)) = some ([String.ofList name], rest) := by
    rw [items, itemsUpTo]
    have first : (do skipBlanks; let k ← simpleKey; skipBlanks; return k : Reader String)
        (name ++ (blanks ++ rest)) = some (String.ofList name, rest) := by
      rw [bind_of_some (skipBlanks_none (isKey.not_blank _)),
        bind_of_some (simpleKey_bare isKey ends),
        bind_of_some (skipBlanks_append all fun c first => (stop c first).2.1)]
      rfl
    rw [bind_of_some first, bind_of_some (accept_of_head?_ne dot [])]
    rfl
  have few : [String.ofList name].length < depthLimit := show 1 < 80 by decide
  rw [key, bind_of_some item, if_pos few]
  rfl

/-! ## Integers -/

theorem isDigit_of_mem_toDigits {n : Nat} {c : Char} (mem : c ∈ Nat.toDigits 10 n) :
    c.isDigit = true := by
  have digits : ∀ d < 10, (Nat.digitChar d).isDigit = true := by decide
  obtain ⟨d, less, rfl⟩ := Decimal.exists_digitChar_of_mem_toDigits (by decide) mem
  exact digits d less

/-- A number but zero does not begin with the digit zero. -/
theorem head?_toDigits {n : Nat} (positive : n ≠ 0) : (Nat.toDigits 10 n).head? ≠ some '0' := by
  induction n using Nat.strongRecOn with
  | ind n ih =>
      rw [Nat.toDigits_eq_if (by decide)]
      split
      · next less =>
          have digits : ∀ d < 10, d ≠ 0 → Nat.digitChar d ≠ '0' := by decide
          exact fun same => digits n less positive (Option.some.inj same)
      · next long =>
          have ih := ih (n / 10) (Nat.div_lt_self (by omega) (by decide)) (by omega)
          obtain ⟨c, ds, spelled⟩ := List.exists_cons_of_ne_nil (Decimal.toDigits_ne_nil (n / 10))
          rw [spelled] at ih ⊢
          exact ih

theorem digitsAfter_append {ds : List Char} (digits : ∀ c ∈ ds, c.isDigit = true)
    (rest : List Char) :
    digitsAfter Char.isDigit (ds ++ '\n' :: rest) = some (ds, '\n' :: rest) := by
  induction ds with
  | nil =>
      rw [List.nil_append, digitsAfter.eq_def]
      rfl
  | cons c ds ih =>
      have digit := digits c (.head _)
      have ih := ih fun d mem => digits d (.tail c mem)
      have score : c ≠ '_' := by
        rintro rfl
        exact nomatch digit
      rw [List.cons_append, digitsAfter.eq_def]
      split <;> simp_all [withChar]

/-- The digits of a number are read up to the end of the line. -/
theorem wholeDigits_toDigits (n : Nat) (rest : List Char) :
    wholeDigits (Nat.toDigits 10 n ++ '\n' :: rest) = some (Nat.toDigits 10 n, '\n' :: rest) := by
  by_cases zero : n = 0
  · subst zero
    rw [wholeDigits, show Nat.toDigits 10 0 = ['0'] from rfl,
      bind_of_some (accept_append ['0'] ('\n' :: rest))]
    rfl
  · have first := head?_toDigits zero
    obtain ⟨c, ds, spelled⟩ := List.exists_cons_of_ne_nil (Decimal.toDigits_ne_nil n)
    have digits (d : Char) (mem : d ∈ c :: ds) : d.isDigit = true :=
      isDigit_of_mem_toDigits (spelled ▸ mem)
    rw [spelled] at first ⊢
    have first : (c :: ds ++ '\n' :: rest).head? ≠ some '0' := first
    rw [wholeDigits, bind_of_some (accept_of_head?_ne first [])]
    show digitRun Char.isDigit (c :: (ds ++ '\n' :: rest)) = _
    rw [digitRun, if_pos (digits c (.head _)),
      digitsAfter_append fun d mem => digits d (.tail c mem)]
    rfl

/-- A number in front of the end of a line is no date and no time of day. -/
theorem startsWithDigits_digits {ds : List Char} (digits : ∀ c ∈ ds, c.isDigit = true)
    {mark : Char} (other : mark.isDigit = false) (line : mark ≠ '\n') (count : Nat)
    (rest : List Char) : startsWithDigits count mark (ds ++ '\n' :: rest) = false := by
  rw [startsWithDigits, Bool.and_eq_false_iff]
  induction count generalizing ds with
  | zero =>
      refine .inr (decide_eq_false ?_)
      cases ds with
      | nil => exact fun same => line (Option.some.inj same).symm
      | cons c ds =>
          intro same
          obtain rfl := Option.some.inj same
          exact nomatch other.symm.trans (digits _ (.head _))
  | succ count ih =>
      cases ds with
      | nil => exact .inl rfl
      | cons c ds =>
          refine (ih fun d mem => digits d (.tail c mem)).imp_left fun some => ?_
          rw [List.cons_append, List.take_succ_cons, List.all_cons, some, Bool.and_false]

theorem lift_some {α : Type} (a : α) (cs : List Char) :
    (liftM (some a) : Reader α) cs = some (a, cs) :=
  rfl

/-- A number in front of the end of a line has no fraction and no exponent. -/
theorem decimal_toDigits (s : List Char) (n : Nat)
    (range : -2 ^ 63 ≤ signed s n ∧ signed s n < 2 ^ 63) (rest : List Char) :
    decimal s (Nat.toDigits 10 n ++ '\n' :: rest)
      = some (.scalar (.integer (signed s n)), '\n' :: rest) := by
  have frac : fraction ('\n' :: rest) = some (none, '\n' :: rest) := by
    rw [fraction, bind_of_some (accept_of_head?_ne (by simp) [])]
    rfl
  have exp : exponent ('\n' :: rest) = some (none, '\n' :: rest) := rfl
  rw [decimal, bind_of_some (wholeDigits_toDigits n rest), bind_of_some frac, bind_of_some exp,
    Decimal.digits?_toDigits]
  -- there is neither a fraction nor an exponent, so that the digits are all
  show ((liftM (some n) : Reader Nat) >>= _) ('\n' :: rest) = _
  rw [bind_of_some (lift_some n _), if_pos (by simpa using range)]
  rfl

/-- The characters of an integer are a minus sign, where there is one, and digits. -/
theorem toList_toString_int (n : Int) :
    (toString n).toList = (if n < 0 then ['-'] else []) ++ Nat.toDigits 10 n.natAbs := by
  cases n with
  | ofNat m => exact Decimal.toList_toString m
  | negSucc m =>
      show ("-" ++ toString (m + 1)).toList = _
      rw [String.toList_append, Decimal.toList_toString, if_pos (Int.negSucc_lt_zero m)]
      rfl

theorem signed_natAbs (n : Int) : signed (if n < 0 then ['-'] else []) n.natAbs = n := by
  rw [signed]
  split
  · rw [if_pos rfl]
    omega
  · rw [if_neg (by simp)]
    omega

theorem acceptOne_of_head?_not_mem {choices cs : List Char}
    (other : ∀ c ∈ cs.head?, c ∉ choices) : acceptOne choices cs = some (none, cs) := by
  cases cs with
  | nil => rfl
  | cons c rest =>
      rw [acceptOne, if_neg (mt List.contains_iff_mem.mp (other c rfl))]

/-- A sign is taken off a number. -/
theorem sign_append (n : Int) {cs : List Char} (digit : ∀ c ∈ cs.head?, c.isDigit = true) :
    sign ((if n < 0 then ['-'] else []) ++ cs) = some (if n < 0 then ['-'] else [], cs) := by
  rw [sign]
  split
  · rfl
  · rw [List.nil_append, bind_of_some (acceptOne_of_head?_not_mem ?_)]
    · rfl
    · intro c first mem
      have digit := digit c first
      rw [List.mem_cons, List.mem_singleton] at mem
      rcases mem with rfl | rfl <;> exact nomatch digit

/-- The mark of another base does not begin an integer. -/
theorem accept_base {mark : Char} (other : mark.isDigit = false) (line : mark ≠ '\n') (n : Int)
    (rest : List Char) :
    accept ['0', mark] ((toString n).toList ++ '\n' :: rest)
      = some (false, (toString n).toList ++ '\n' :: rest) := by
  obtain ⟨c, ds, spelled⟩ := List.exists_cons_of_ne_nil (Decimal.toDigits_ne_nil n.natAbs)
  refine accept_of_not_isPrefix ?_
  rw [toList_toString_int, spelled]
  split
  · exact fun same => absurd (List.cons_prefix_cons.mp same).1 (by decide)
  · intro same
    have second := (List.cons_prefix_cons.mp same).2
    cases ds with
    | nil => exact line (List.cons_prefix_cons.mp second).1
    | cons d ds =>
        obtain rfl := (List.cons_prefix_cons.mp second).1
        have digit : mark.isDigit = true :=
          isDigit_of_mem_toDigits (spelled ▸ List.mem_cons_of_mem c List.mem_cons_self)
        exact nomatch other.symm.trans digit

/-- An integer is read back in front of the end of a line. -/
theorem number_toString {n : Int} (range : -2 ^ 63 ≤ n ∧ n < 2 ^ 63) (rest : List Char) :
    number ((toString n).toList ++ '\n' :: rest) = some (.scalar (.integer n), '\n' :: rest) := by
  obtain ⟨c, ds, spelled⟩ := List.exists_cons_of_ne_nil (Decimal.toDigits_ne_nil n.natAbs)
  have digit : c.isDigit = true := isDigit_of_mem_toDigits (spelled ▸ List.mem_cons_self)
  have first : ∀ d ∈ (Nat.toDigits 10 n.natAbs ++ '\n' :: rest).head?, d.isDigit = true := by
    rw [spelled]
    rintro d ⟨⟩
    exact digit
  have shown : peek (Nat.toDigits 10 n.natAbs ++ '\n' :: rest)
      = some (some c, Nat.toDigits 10 n.natAbs ++ '\n' :: rest) := by
    rw [spelled]
    rfl
  rw [number, bind_of_some (accept_base (by decide) (by decide) n rest)]
  show (accept ['0', 'o'] >>= _) _ = _
  rw [bind_of_some (accept_base (by decide) (by decide) n rest)]
  show (accept ['0', 'b'] >>= _) _ = _
  rw [bind_of_some (accept_base (by decide) (by decide) n rest)]
  show (sign >>= _) _ = _
  rw [toList_toString_int, List.append_assoc, bind_of_some (sign_append n first),
    bind_of_some shown]
  show (if c.isDigit = true then decimal _ else specialFloat _) _ = _
  rw [if_pos digit, decimal_toDigits _ _ (by rw [signed_natAbs]; exact range), signed_natAbs]

/-! ## Values -/

/-- A string begins with a quote. -/
theorem exists_quote (s : String) :
    ∃ c tail, (quote s).toList = c :: tail ∧ (c = '"' ∨ c = '\'') := by
  rw [quote, String.toList_ofList]
  cases formOf s.toList with
  | quoted => exact ⟨'"', _, rfl, .inl rfl⟩
  | literal => exact ⟨'\'', _, rfl, .inr rfl⟩
  | longQuoted => exact ⟨'"', _, rfl, .inl rfl⟩
  | longLiteral => exact ⟨'\'', _, rfl, .inr rfl⟩

theorem exists_toString (n : Int) :
    ∃ c tail, (toString n).toList = c :: tail ∧ (c = '-' ∨ c.isDigit = true) := by
  rw [toList_toString_int]
  split
  · exact ⟨'-', _, rfl, .inl rfl⟩
  · obtain ⟨c, ds, spelled⟩ := List.exists_cons_of_ne_nil (Decimal.toDigits_ne_nil n.natAbs)
    exact ⟨c, ds, spelled, .inr (isDigit_of_mem_toDigits (spelled ▸ List.mem_cons_self))⟩

/-- An integer in front of the end of a line is taken for a number. -/
theorem startsWithDigits_toString (n : Int) (rest : List Char) :
    startsDate ((toString n).toList ++ '\n' :: rest) = false
      ∧ startsTime ((toString n).toList ++ '\n' :: rest) = false := by
  have digits : ∀ c ∈ Nat.toDigits 10 n.natAbs, c.isDigit = true :=
    fun _ => isDigit_of_mem_toDigits
  rw [toList_toString_int]
  split
  · exact ⟨rfl, rfl⟩
  · exact ⟨startsWithDigits_digits digits (by decide) (by decide) 4 rest,
      startsWithDigits_digits digits (by decide) (by decide) 2 rest⟩

/-- What a written value begins with. -/
theorem exists_write {v : Scalar} {text : String} (written : v.write? = some text) :
    ∃ c tail, text.toList = c :: tail
      ∧ (c = '"' ∨ c = '\'' ∨ c = 't' ∨ c = 'f' ∨ c = '-' ∨ c.isDigit = true) := by
  cases v with
  | text s =>
      obtain rfl := Option.some.inj written
      obtain ⟨c, tail, same, quotes⟩ := exists_quote s
      exact ⟨c, tail, same, quotes.imp_right .inl⟩
  | integer n =>
      obtain ⟨-, same⟩ := Option.ite_none_right_eq_some.mp written
      obtain rfl := Option.some.inj same
      obtain ⟨c, tail, same, first⟩ := exists_toString n
      exact ⟨c, tail, same, .inr (.inr (.inr (.inr first)))⟩
  | boolean b =>
      obtain rfl := Option.some.inj written
      cases b with
      | true => exact ⟨'t', _, rfl, .inr (.inr (.inl rfl))⟩
      | false => exact ⟨'f', _, rfl, .inr (.inr (.inr (.inl rfl)))⟩

/-- A written value is read back in front of the end of a line. -/
theorem plainValue_write {v : Scalar} {text : String} (written : v.write? = some text)
    (rest : List Char) :
    plainValue (text.toList ++ '\n' :: rest) = some (.scalar v, '\n' :: rest) := by
  cases v with
  | text s =>
      obtain rfl := Option.some.inj written
      have read : (do return .scalar (.text (← string)) : Reader Value)
          ((quote s).toList ++ '\n' :: rest) = some (.scalar (.text s), '\n' :: rest) :=
        bind_of_some (string_quote s (by simp) (by simp))
      obtain ⟨c, tail, same, rfl | rfl⟩ := exists_quote s
      · rw [same] at read ⊢
        exact read
      · rw [same] at read ⊢
        exact read
  | integer n =>
      obtain ⟨range, same⟩ := Option.ite_none_right_eq_some.mp written
      obtain rfl := Option.some.inj same
      obtain ⟨date, time⟩ := startsWithDigits_toString n rest
      have read := number_toString (by simpa using range) rest
      obtain ⟨c, tail, same, first⟩ := exists_toString n
      rw [same] at date time read ⊢
      rw [plainValue.eq_def]
      -- no other kind of value begins with a sign or a digit
      have other {d : Char} {more : List Char} (cons : c :: tail ++ '\n' :: rest = d :: more)
          (letter : ¬ (d = '-' ∨ d.isDigit = true)) : False :=
        letter ((List.cons.inj cons).1 ▸ first)
      split
      · next cons => exact (other cons (by decide)).elim
      · next cons => exact (other cons (by decide)).elim
      · next cons => exact (other cons (by decide)).elim
      · next cons => exact (other cons (by decide)).elim
      · rw [date, time]
        exact read
  | boolean b =>
      obtain rfl := Option.some.inj written
      cases b with
      | true => exact bind_of_some (expect_append "true".toList ('\n' :: rest))
      | false => exact bind_of_some (expect_append "false".toList ('\n' :: rest))

/-- A value on a line is neither an array nor a table. -/
theorem value_write {v : Scalar} {text : String} (written : v.write? = some text) (depth : Nat)
    (rest : List Char) :
    value depth (text.toList ++ '\n' :: rest) = some (.scalar v, '\n' :: rest) := by
  cases depth with
  | zero => exact plainValue_write written rest
  | succ depth =>
      obtain ⟨c, tail, same, first⟩ := exists_write written
      have bracket : (text.toList ++ '\n' :: rest).head? ≠ some '[' := by
        rw [same]
        rintro ⟨⟩
        revert first
        decide
      have brace : (text.toList ++ '\n' :: rest).head? ≠ some '\x7b' := by
        rw [same]
        rintro ⟨⟩
        revert first
        decide
      rw [value, bind_of_some (accept_of_head?_ne bracket [])]
      show (accept ['\x7b'] >>= _) _ = _
      rw [bind_of_some (accept_of_head?_ne brace [])]
      exact plainValue_write written rest

end RemoteCall.Toml
