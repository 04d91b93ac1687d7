import RemoteCall.Json.Reader
import RemoteCall.Proofs.Reader

/-! # The parts of a JSON text read back

    What the writer spells, the reader takes: strings with all their escapes
    (`takes_string`), bytes as numbers (`takes_readByte`), lists
    (`takes_readList`) and objects with their fields in the written order
    (`takes_readStructure`).

    The writer leaves no blanks, so every reader that skips blanks stays where
    it is (`peek_cons`).  Only numbers do not tell their own end: a list puts a
    comma or a bracket behind each of its items, and that is enough
    (`EndsItem`). -/

namespace RemoteCall.Json

/-! ## Looking ahead -/

/-- No blank is skipped in front of a byte that is none. -/
theorem peek_cons {b : UInt8} (h : isBlank b = false) (rest : Bytes) :
    peek (b :: rest) = .ok (some b, b :: rest) := by
  have stays : (b :: rest).dropWhile isBlank = b :: rest := List.dropWhile_cons_of_neg (by simp [h])
  rw [peek, stays]
  rfl

theorem peekValue_cons {b : UInt8} (h : isBlank b = false) (rest : Bytes) :
    peekValue (b :: rest) = .ok (b, b :: rest) := by
  rw [peekValue, bind_of_ok (peek_cons h rest)]
  rfl

theorem eat_cons (b : UInt8) (rest : Bytes) : eat (b :: rest) = .ok ((), rest) :=
  rfl

theorem get_bytes (bytes : Bytes) : (get : Reader Bytes) bytes = .ok (bytes, bytes) :=
  rfl

/-! ## Strings -/

/-- The digits of a control character spell its number. -/
theorem hexUnit?_hexDigit : ∀ n : Fin 32,
    hexUnit? 0x30 0x30 (hexDigit (n.val / 16)) (hexDigit (n.val % 16)) = some n.val := by
  decide

/-- A control character is one byte of a text. -/
theorem pushPoint_control : ∀ n : Fin 32, pushPoint [] n.val = [UInt8.ofNat n.val] := by
  decide

theorem pushPoint_eq (found : Bytes) (point : Nat) :
    pushPoint found point = pushPoint [] point ++ found := by
  simp [pushPoint]

theorem stringFrom_plain {b : UInt8} (quote : b ≠ 0x22) (backslash : b ≠ 0x5c)
    (control : ¬ b < 0x20) (found rest : Bytes) :
    stringFrom found (b :: rest) = stringFrom (b :: found) rest := by
  rw [stringFrom.eq_def]
  dsimp only
  rw [if_neg quote, if_neg backslash, if_neg control]

theorem stringFrom_short {e c : UInt8} (unicode : e ≠ 0x75) (h : shortEscape? e = some c)
    (found rest : Bytes) :
    stringFrom found (0x5c :: e :: rest) = stringFrom (c :: found) rest := by
  rw [stringFrom.eq_def]
  dsimp only
  rw [if_neg (by decide), if_pos rfl, if_neg unicode, h]

/-- An escape by number stands for the control character with this number. -/
theorem stringFrom_control {b : UInt8} (control : b < 0x20) (found rest : Bytes) :
    stringFrom found (0x5c :: 0x75 :: 0x30 :: 0x30 :: hexDigit (b.toNat / 16)
      :: hexDigit (b.toNat % 16) :: rest) = stringFrom (b :: found) rest := by
  have small : b.toNat < 32 := UInt8.lt_iff_toNat_lt.mp control
  have unit := hexUnit?_hexDigit ⟨b.toNat, small⟩
  have point := pushPoint_control ⟨b.toNat, small⟩
  dsimp only at unit point
  rw [UInt8.ofNat_toNat] at point
  -- a control character is no half of a pair, so no second escape is asked for
  have first : isFirstHalf b.toNat = false := by
    rw [isFirstHalf, Bool.and_eq_false_iff]
    exact Or.inl (decide_eq_false (by omega))
  have second : isSecondHalf b.toNat = false := by
    rw [isSecondHalf, Bool.and_eq_false_iff]
    exact Or.inl (decide_eq_false (by omega))
  rw [stringFrom.eq_def]
  dsimp only
  rw [if_neg (by decide), if_pos rfl, if_pos rfl, unit]
  simp only [first, second, Bool.false_eq_true, if_false]
  rw [pushPoint_eq, point, List.singleton_append]

/-- A byte is read back from the way it stands inside a string. -/
theorem stringFrom_escapeByte (b : UInt8) (found rest : Bytes) :
    stringFrom found (escapeByte b ++ rest) = stringFrom (b :: found) rest := by
  -- the reader asks for the same bytes in the same order as the writer
  rw [escapeByte]
  split
  · next quote => subst quote; exact stringFrom_short (by decide) (by decide) found rest
  split
  · next backslash => subst backslash; exact stringFrom_short (by decide) (by decide) found rest
  split
  · next backspace => subst backspace; exact stringFrom_short (by decide) (by decide) found rest
  split
  · next tab => subst tab; exact stringFrom_short (by decide) (by decide) found rest
  split
  · next newline => subst newline; exact stringFrom_short (by decide) (by decide) found rest
  split
  · next feed => subst feed; exact stringFrom_short (by decide) (by decide) found rest
  split
  · next start => subst start; exact stringFrom_short (by decide) (by decide) found rest
  split
  · next control => exact stringFrom_control control found rest
  · next quote backslash _ _ _ _ _ control =>
      exact stringFrom_plain quote backslash control found rest

theorem stringFrom_flatMap (content found rest : Bytes) :
    stringFrom found (content.flatMap escapeByte ++ 0x22 :: rest)
      = .ok (found.reverse ++ content, rest) := by
  induction content generalizing found with
  | nil =>
      rw [List.flatMap_nil, List.nil_append, stringFrom.eq_def, List.append_nil]
      rfl
  | cons b content ih =>
      rw [List.flatMap_cons, List.append_assoc, stringFrom_escapeByte, ih, List.reverse_cons,
        List.append_assoc, List.singleton_append]

/-- A text is read back behind the opening quote. -/
theorem takes_string (text : String) :
    Takes string ((Bytes.ofText text).flatMap escapeByte ++ [0x22]) text := by
  intro rest
  rw [List.append_assoc, List.singleton_append, string, stringFrom_flatMap]
  simp only [List.reverse_nil, List.nil_append, Utf8.decode_ofText]

theorem takes_readText (expected : String) (text : String) :
    Takes (readText expected) (writeText text) text := by
  intro rest
  rw [writeText, List.cons_append, readText, bind_of_ok (peekValue_cons (by decide) _)]
  exact takes_string text rest

/-! ## Bytes as numbers -/

set_option maxRecDepth 4000 in
/-- A number below 256 in decimal: one to three digits, no needless zero in front, and the value
comes back. -/
theorem decimal_byte : ∀ n : Fin 256, (writeNat n.val).all isDigit = true
    ∧ absorb 0 (writeNat n.val) = (n.val, [])
    ∧ ∃ first ∈ (writeNat n.val).head?, first ≠ 0x30 ∨ (writeNat n.val).length ≤ 1 := by
  decide

/-- What may stand behind an item of a list. -/
def EndsItem (rest : Bytes) : Prop :=
  ∃ b more, rest = b :: more ∧ (b = 0x2c ∨ b = 0x5d)

/-- Digits are taken up to the byte that ends an item. -/
theorem digits_append {ds rest : Bytes} (all : ds.all isDigit = true) (ends : EndsItem rest) :
    digits (ds ++ rest) = .ok (ds, rest) := by
  obtain ⟨b, more, rfl, stop⟩ := ends
  have none : isDigit b = false := by
    rcases stop with rfl | rfl <;> decide
  have inside : ∀ d ∈ ds, isDigit d = true := fun d mem => List.all_eq_true.mp all d mem
  rw [digits, List.takeWhile_append_of_pos inside, List.dropWhile_append_of_pos inside,
    List.takeWhile_cons_of_neg (by simp [none]), List.dropWhile_cons_of_neg (by simp [none]),
    List.append_nil]

/-- A whole number ends where an item ends. -/
theorem number_append {first : UInt8} {ds rest : Bytes} {n : Nat}
    (all : (first :: ds).all isDigit = true) (value : absorb 0 (first :: ds) = (n, []))
    (zero : first ≠ 0x30 ∨ (first :: ds).length ≤ 1) (ends : EndsItem rest) :
    number false (first :: ds ++ rest) = .ok (.whole n, rest) := by
  have digit : isDigit first = true := List.all_eq_true.mp all first (List.mem_cons_self ..)
  have plain : (decide (first = 0x30) && decide (1 < (first :: ds).length)) = false := by
    rw [Bool.and_eq_false_iff]
    rcases zero with other | short
    · exact Or.inl (decide_eq_false other)
    · exact Or.inr (decide_eq_false (by omega))
  rw [number, bind_of_ok (a := some first) (s := first :: ds ++ rest) rfl]
  simp only [digit, Bool.not_true, Bool.false_eq_true, if_false]
  rw [bind_of_ok (digits_append all ends)]
  simp only [gt_iff_lt, plain, Bool.false_eq_true, if_false, value]
  obtain ⟨b, more, rfl, stop⟩ := ends
  rw [bind_of_ok (a := some b) (s := b :: more) rfl]
  rcases stop with rfl | rfl <;> rfl

/-- The first digit of a number is neither a blank nor the end of a list. -/
theorem not_blank_of_isDigit {b : UInt8} (digit : isDigit b = true) :
    isBlank b = false ∧ b ≠ 0x5d := by
  constructor
  · cases blank : isBlank b with
    | false => rfl
    | true =>
        simp only [isBlank, Bool.or_eq_true, decide_eq_true_eq] at blank
        rcases blank with ((rfl | rfl) | rfl) | rfl <;> exact absurd digit (by decide)
  · rintro rfl
    exact absurd digit (by decide)

/-- A byte is read back from its decimal. -/
theorem takes_readByte (b : UInt8) :
    TakesBefore EndsItem readByte (writeNat b.toNat) b := by
  intro rest ends
  obtain ⟨all, value, first, head, zero⟩ := decimal_byte ⟨b.toNat, b.toNat_lt⟩
  dsimp only at all value head zero
  obtain ⟨ds, spelled⟩ : ∃ ds, writeNat b.toNat = first :: ds := by
    cases written : writeNat b.toNat with
    | nil => rw [written] at head; exact nomatch head
    | cons c ds =>
        rw [written] at head
        exact ⟨ds, congrArg (· :: ds) (Option.some.inj head)⟩
  rw [spelled] at all value zero ⊢
  have digit : isDigit first = true := List.all_eq_true.mp all first (List.mem_cons_self ..)
  have blank := (not_blank_of_isDigit digit).1
  have minus : first ≠ 0x2d := by
    rintro rfl
    exact absurd digit (by decide)
  have whole := number_append all value zero ends
  rw [List.cons_append] at whole ⊢
  rw [readByte, bind_of_ok (peekValue_cons blank _)]
  simp only [digit, if_true]
  rw [bind_of_ok whole]
  have inside : (0 : Int) ≤ (b.toNat : Int) ∧ (b.toNat : Int) < 256 := by
    have := b.toNat_lt
    omega
  simp only [inside, decide_true, Bool.and_self, if_true, Int.toNat_natCast, UInt8.ofNat_toNat]
  rfl

/-! ## Lists -/

/-- An item can start with this: the byte is neither skipped nor taken for the end of the list. -/
def StartsItem (spelled : Bytes) : Prop :=
  ∃ b more, spelled = b :: more ∧ isBlank b = false ∧ b ≠ 0x5d

theorem nextItem_end (first : Bool) (rest : Bytes) :
    nextItem first (0x5d :: rest) = .ok (false, 0x5d :: rest) := by
  rw [nextItem, bind_of_ok (peek_cons (by decide) rest)]
  rfl

theorem nextItem_first {spelled : Bytes} (h : StartsItem spelled) (rest : Bytes) :
    nextItem true (spelled ++ rest) = .ok (true, spelled ++ rest) := by
  obtain ⟨b, more, rfl, blank, other⟩ := h
  rw [List.cons_append, nextItem, bind_of_ok (peek_cons blank _)]
  simp only [if_true]
  rfl

/-- A comma announces a further item. -/
theorem nextItem_comma {spelled : Bytes} (h : StartsItem spelled) (rest : Bytes) :
    nextItem false (0x2c :: (spelled ++ rest)) = .ok (true, spelled ++ rest) := by
  obtain ⟨b, more, rfl, blank, other⟩ := h
  have comma : (0x2c : UInt8) ≠ 0x5d := by decide
  rw [nextItem, bind_of_ok (peek_cons (by decide) _), List.cons_append]
  simp only [Bool.false_eq_true, if_false, if_true]
  rw [bind_of_ok (a := PUnit.unit) (s := b :: (more ++ rest)) rfl,
    bind_of_ok (peek_cons blank _)]
  simp only
  rfl

theorem endList_bracket (rest : Bytes) : endList (0x5d :: rest) = .ok ((), rest) := by
  rw [endList, bind_of_ok (peek_cons (by decide) rest)]
  rfl

section Lists

variable {α : Type} {readItem : Reader α} {writeItem : α → Bytes}

theorem endsItem_writeMore (writeItem : α → Bytes) (items : List α) (rest : Bytes) :
    EndsItem (writeMore writeItem items ++ 0x5d :: rest) := by
  cases items with
  | nil => exact ⟨0x5d, rest, rfl, Or.inr rfl⟩
  | cons item items => exact ⟨0x2c, _, rfl, Or.inl rfl⟩

theorem length_le_writeMore (writeItem : α → Bytes) (items : List α) :
    items.length ≤ (writeMore writeItem items).length := by
  induction items with
  | nil => exact Nat.le_refl 0
  | cons item items ih =>
      rw [writeMore] at ih ⊢
      rw [List.flatMap_cons, List.length_append, List.length_cons, List.length_cons]
      omega

/-- Items behind the first one are taken up to the bracket. -/
theorem itemsFrom_writeMore {items : List α}
    (starts : ∀ item ∈ items, StartsItem (writeItem item))
    (takes : ∀ item ∈ items, TakesBefore EndsItem readItem (writeItem item) item)
    {steps : Nat} (enough : items.length < steps) {found : List α} (some : found ≠ [])
    (rest : Bytes) :
    itemsFrom readItem steps found (writeMore writeItem items ++ 0x5d :: rest)
      = .ok (found.reverse ++ items, 0x5d :: rest) := by
  induction items generalizing steps found with
  | nil =>
      obtain ⟨steps, rfl⟩ := Nat.exists_eq_succ_of_ne_zero (Nat.ne_zero_of_lt enough)
      rw [writeMore, List.flatMap_nil, List.nil_append, itemsFrom, bind_of_ok (nextItem_end _ rest),
        List.append_nil]
      rfl
  | cons item items ih =>
      obtain ⟨steps, rfl⟩ := Nat.exists_eq_succ_of_ne_zero (Nat.ne_zero_of_lt enough)
      have later := ih (fun other mem => starts other (List.mem_cons_of_mem item mem))
        (fun other mem => takes other (List.mem_cons_of_mem item mem))
        (Nat.lt_of_succ_lt_succ enough) (List.cons_ne_nil item found)
      have start := starts item (List.mem_cons_self ..)
      -- behind the item stands the comma of the next one, or the bracket
      have head := takes item (List.mem_cons_self ..) _
        (endsItem_writeMore writeItem items rest)
      have more : found.isEmpty = false := List.isEmpty_eq_false_iff.mpr some
      rw [writeMore, List.flatMap_cons, List.append_assoc, List.cons_append, itemsFrom, more,
        bind_of_ok (nextItem_comma start _)]
      simp only [if_true]
      rw [← writeMore, bind_of_ok head, later, List.reverse_cons, List.append_assoc,
        List.singleton_append]

/-- The items of a list are taken up to its bracket. -/
theorem itemsFrom_items {item : α} {items : List α}
    (starts : ∀ other ∈ item :: items, StartsItem (writeItem other))
    (takes : ∀ other ∈ item :: items, TakesBefore EndsItem readItem (writeItem other) other)
    {steps : Nat} (enough : items.length < steps) (rest : Bytes) :
    itemsFrom readItem (steps + 1) []
        (writeItem item ++ (writeMore writeItem items ++ 0x5d :: rest))
      = .ok (item :: items, 0x5d :: rest) := by
  have start := starts item (List.mem_cons_self ..)
  have head := takes item (List.mem_cons_self ..) _
    (endsItem_writeMore writeItem items rest)
  have later := itemsFrom_writeMore (fun other mem => starts other (List.mem_cons_of_mem item mem))
    (fun other mem => takes other (List.mem_cons_of_mem item mem)) enough
    (List.cons_ne_nil item []) rest
  rw [itemsFrom, List.isEmpty_nil, bind_of_ok (nextItem_first start _)]
  simp only [if_true]
  rw [bind_of_ok head, later]
  rfl

/-- A list is read back when its items are. -/
theorem takes_readList {items : List α}
    (starts : ∀ item ∈ items, StartsItem (writeItem item))
    (takes : ∀ item ∈ items, TakesBefore EndsItem readItem (writeItem item) item) :
    Takes (readList readItem) (writeList writeItem items) items := by
  intro rest
  cases items with
  | nil => rfl
  | cons item items =>
      -- the fuel is the length of what is left, and every item takes a byte at least
      have fuel : items.length
          < (writeItem item ++ (writeMore writeItem items ++ 0x5d :: rest)).length := by
        have := length_le_writeMore writeItem items
        simp only [List.length_append, List.length_cons]
        omega
      rw [writeList, List.cons_append, List.append_assoc, List.append_assoc,
        List.singleton_append, readList, bind_of_ok (peekValue_cons (by decide) _)]
      show (eat >>= fun _ => get >>= fun left => itemsFrom readItem (left.length + 1) [] >>=
        fun items => endList >>= fun _ => pure items : Reader (List α)) _ = _
      rw [bind_of_ok (eat_cons ..), bind_of_ok (get_bytes _),
        bind_of_ok (itemsFrom_items starts takes fuel rest), bind_of_ok (endList_bracket rest)]
      rfl

end Lists

/-! ## Objects -/

theorem colon_cons (rest : Bytes) : colon (0x3a :: rest) = .ok ((), rest) := by
  rw [colon, bind_of_ok (peek_cons (by decide) rest)]
  rfl

/-- A field that was not found before is read behind its colon. -/
theorem takes_readOnce {α : Type} {name : String} {readValue : Reader α} {spelled : Bytes}
    {value : α} (h : Takes readValue spelled value) :
    Takes (readOnce name none readValue) (0x3a :: spelled) value := by
  intro rest
  rw [List.cons_append, readOnce]
  show (colon >>= fun _ => readValue : Reader α) _ = _
  rw [bind_of_ok (colon_cons _)]
  exact h rest

theorem nextKey_end (first : Bool) (rest : Bytes) :
    nextKey first (0x7d :: rest) = .ok (false, 0x7d :: rest) := by
  rw [nextKey, bind_of_ok (peek_cons (by decide) rest)]
  rfl

theorem nextKey_first (rest : Bytes) :
    nextKey true (0x22 :: rest) = .ok (true, 0x22 :: rest) := by
  rw [nextKey, bind_of_ok (peek_cons (by decide) rest)]
  rfl

theorem nextKey_comma (rest : Bytes) :
    nextKey false (0x2c :: 0x22 :: rest) = .ok (true, 0x22 :: rest) := by
  rw [nextKey, bind_of_ok (peek_cons (by decide) _)]
  show (eat >>= fun _ => peek >>= _ : Reader Bool) _ = _
  rw [bind_of_ok (eat_cons ..), bind_of_ok (peek_cons (by decide) rest)]
  rfl

section Objects

variable {σ α : Type} {readField : String → σ → Reader σ}

/-- Written fields lead from one state to another, each read behind its key. -/
def FieldsLead (readField : String → σ → Reader σ) : σ → List (String × Bytes) → σ → Prop
  | before, [], after => before = after
  | before, (key, value) :: fields, after =>
      ∃ next, Takes (readField key before) (0x3a :: value) next
        ∧ FieldsLead readField next fields after

/-- A written field starts with the quote of its key. -/
theorem writeField_cons (field : String × Bytes) : ∃ more, writeField field = 0x22 :: more :=
  ⟨_, rfl⟩

/-- One round of the loop over fields, once it is known that a key follows. -/
theorem fieldsFrom_step {steps : Nat} {first : Bool} {key : String} {value bytes rest : Bytes}
    {before next : σ}
    (announced : nextKey first bytes = .ok (true, writeField (key, value) ++ rest))
    (h : Takes (readField key before) (0x3a :: value) next) :
    fieldsFrom readField (steps + 1) first before bytes
      = fieldsFrom readField steps false next rest := by
  rw [fieldsFrom, bind_of_ok announced]
  simp only [if_true]
  rw [writeField, writeText, List.cons_append, List.cons_append, bind_of_ok (eat_cons ..),
    List.append_assoc, bind_of_ok (takes_string key _), bind_of_ok (h rest)]

theorem fieldsFrom_end {steps : Nat} {first : Bool} {state : σ} (rest : Bytes) :
    fieldsFrom readField (steps + 1) first state (0x7d :: rest) = .ok (state, 0x7d :: rest) := by
  rw [fieldsFrom, bind_of_ok (nextKey_end first rest)]
  rfl

/-- Fields behind the first one are read up to the brace. -/
theorem fieldsFrom_writeMore {fields : List (String × Bytes)} {before after : σ}
    (leads : FieldsLead readField before fields after) {steps : Nat}
    (enough : fields.length < steps) (rest : Bytes) :
    fieldsFrom readField steps false before (writeMore writeField fields ++ 0x7d :: rest)
      = .ok (after, 0x7d :: rest) := by
  induction fields generalizing steps before with
  | nil =>
      obtain ⟨steps, rfl⟩ := Nat.exists_eq_succ_of_ne_zero (Nat.ne_zero_of_lt enough)
      obtain rfl : before = after := leads
      exact fieldsFrom_end rest
  | cons field fields ih =>
      obtain ⟨steps, rfl⟩ := Nat.exists_eq_succ_of_ne_zero (Nat.ne_zero_of_lt enough)
      obtain ⟨key, value⟩ := field
      obtain ⟨next, h, later⟩ := leads
      have announced : nextKey false
          (writeMore writeField ((key, value) :: fields) ++ 0x7d :: rest)
          = .ok (true,
            writeField (key, value) ++ (writeMore writeField fields ++ 0x7d :: rest)) := by
        obtain ⟨more, quote⟩ := writeField_cons (key, value)
        rw [writeMore, List.flatMap_cons, List.append_assoc, List.cons_append, quote,
          List.cons_append]
        exact nextKey_comma _
      rw [fieldsFrom_step announced h]
      exact ih later (Nat.lt_of_succ_lt_succ enough)

/-- A structure is read back from the object of its fields. -/
theorem takes_readStructure {name : String} {empty after : σ} {finish : σ → Except Flaw α}
    {ofList : Reader α} {fields : List (String × Bytes)} {value : α}
    (some : fields ≠ []) (leads : FieldsLead readField empty fields after)
    (done : finish after = .ok value) :
    Takes (readStructure name empty readField finish ofList) (writeObject fields) value := by
  intro rest
  obtain ⟨⟨key, spelled⟩, fields, rfl⟩ := List.exists_cons_of_ne_nil some
  obtain ⟨next, h, later⟩ := leads
  have fuel : fields.length
      < (writeField (key, spelled) ++ (writeMore writeField fields ++ 0x7d :: rest)).length := by
    have := length_le_writeMore writeField fields
    simp only [List.length_append, List.length_cons]
    omega
  have announced : nextKey true
      (writeField (key, spelled) ++ (writeMore writeField fields ++ 0x7d :: rest))
      = .ok (true, writeField (key, spelled) ++ (writeMore writeField fields ++ 0x7d :: rest)) := by
    obtain ⟨more, quote⟩ := writeField_cons (key, spelled)
    rw [quote, List.cons_append]
    exact nextKey_first _
  -- the first key stands behind no comma, the others do
  have all := (fieldsFrom_step announced h).trans (fieldsFrom_writeMore later fuel rest)
  rw [writeObject, List.cons_append, List.append_assoc, List.append_assoc, List.singleton_append,
    readStructure, bind_of_ok (peekValue_cons (by decide) _)]
  show (eat >>= fun _ => get >>= fun left => fieldsFrom readField (left.length + 1) true empty >>=
    fun state => StateT.lift (finish state) >>= fun value => eat >>= fun _ => pure value : Reader α)
    _ = _
  rw [bind_of_ok (eat_cons ..), bind_of_ok (get_bytes _), bind_of_ok all,
    bind_of_ok (a := value) (s := 0x7d :: rest) (by rw [done]; rfl), bind_of_ok (eat_cons ..)]
  rfl

end Objects

end RemoteCall.Json
