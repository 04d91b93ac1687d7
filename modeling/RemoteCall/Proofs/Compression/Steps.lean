import RemoteCall.Compression.Window

/-! # Steps divide a text

    While unpacking, the output is the part of the text up to some place
    (`Reaches`), and new bytes and repetitions move the place on
    (`Reaches.append_slice`, `Reaches.copyBack`); a repetition may reach into
    itself, so it goes byte by byte.

    Packing finds steps that FIT: what a step repeats has stood before
    (`Step.Fits`), and each step starts where the one before stops (`Divides`).
    That the steps found for a text divide it (`divides_steps`) rests on the
    table of places: every place in it is behind the current one. -/

namespace RemoteCall.Compression

/-! ## Arrays as texts -/

theorem byteAt_eq (data : ByteArray) (place : Nat) :
    byteAt data place = (Bytes.ofArray data).getD place 0 := by
  rw [byteAt, List.getD_eq_getElem?_getD]
  by_cases inside : place < data.size
  · rw [dif_pos inside]
    have bound : place < (Bytes.ofArray data).length := by
      rw [Bytes.length_ofArray]
      exact inside
    rw [List.getElem?_eq_getElem bound]
    rfl
  · rw [dif_neg inside, List.getElem?_eq_none]
    · rfl
    · rw [Bytes.length_ofArray]
      exact Nat.le_of_not_lt inside

theorem slice_eq (data : ByteArray) (start length : Nat) :
    slice data start length = ((Bytes.ofArray data).drop start).take length := by
  rw [slice, Bytes.ofArray, ByteArray.data_extract, Array.toList_extract, List.extract_eq_take_drop,
    Nat.add_sub_cancel_left]
  rfl

theorem length_slice {data : ByteArray} {start length : Nat} (inside : start + length ≤ data.size) :
    (slice data start length).length = length := by
  rw [slice_eq, List.length_take, List.length_drop, Bytes.length_ofArray]
  omega

theorem ofArray_push (out : ByteArray) (b : UInt8) :
    Bytes.ofArray (out.push b) = Bytes.ofArray out ++ [b] := by
  rw [Bytes.ofArray, ByteArray.data_push, Array.toList_push]
  rfl

theorem ofArray_append (out : ByteArray) (bytes : Bytes) :
    Bytes.ofArray (append out bytes) = Bytes.ofArray out ++ bytes := by
  induction bytes generalizing out with
  | nil => exact (List.append_nil _).symm
  | cons b rest ih =>
      show Bytes.ofArray (append (out.push b) rest) = _
      rw [ih, ofArray_push, List.append_assoc]
      rfl

/-! ## Unpacking up to a place -/

/-- The output is the text up to a place. -/
structure Reaches (text : Bytes) (place : Nat) (out : ByteArray) : Prop where
  inside : place ≤ text.length
  bytes : Bytes.ofArray out = text.take place

section Reaches

variable {text : Bytes} {place : Nat} {out : ByteArray}

theorem reaches_empty (text : Bytes) : Reaches text 0 ByteArray.empty :=
  ⟨Nat.zero_le _, rfl⟩

theorem Reaches.size (h : Reaches text place out) : out.size = place := by
  rw [← Bytes.length_ofArray, h.bytes, List.length_take]
  exact Nat.min_eq_left h.inside

/-- The whole text is reached. -/
theorem Reaches.eq (h : Reaches text text.length out) : Bytes.ofArray out = text := by
  rw [h.bytes, List.take_length]

/-- New bytes of the text move the place on. -/
theorem Reaches.append (h : Reaches text place out) (length : Nat)
    (inside : place + length ≤ text.length) :
    Reaches text (place + length) (append out ((text.drop place).take length)) := by
  refine ⟨inside, ?_⟩
  rw [ofArray_append, h.bytes, ← List.take_add]

/-- A byte that stood before is what is repeated. -/
theorem Reaches.byteBack_eq (h : Reaches text place out) {offset : Nat} (positive : 0 < offset)
    (within : offset ≤ place) : byteBack out offset = text.getD (place - offset) 0 := by
  have size := h.size
  have stands : 0 < offset ∧ offset ≤ out.size := ⟨positive, by omega⟩
  have same : byteBack out offset = byteAt out (out.size - offset) := by
    rw [byteBack, dif_pos stands, byteAt, dif_pos (by omega)]
  rw [same, byteAt_eq, h.bytes, size, List.getD_eq_getElem?_getD, List.getD_eq_getElem?_getD,
    List.getElem?_take_of_lt (by omega)]

/-- A repetition of what the text repeats moves the place on. -/
theorem Reaches.copyBack (h : Reaches text place out) {offset length : Nat} (positive : 0 < offset)
    (within : offset ≤ place) (inside : place + length ≤ text.length)
    (repeats : ∀ i < length, text.getD (place + i - offset) 0 = text.getD (place + i) 0) :
    Reaches text (place + length) (copyBack offset length out) := by
  induction length generalizing place out with
  | zero => exact h
  | succ length ih =>
      have first := repeats 0 (Nat.succ_pos length)
      rw [Nat.add_zero] at first
      have here : place < text.length := by omega
      -- the byte is pushed before the next one is looked up, so a repetition may reach into itself
      have next : Reaches text (place + 1) (out.push (Compression.byteBack out offset)) := by
        refine ⟨here, ?_⟩
        rw [ofArray_push, h.bytes, h.byteBack_eq positive within, first, List.take_add_one,
          List.getD_eq_getElem?_getD, List.getElem?_eq_getElem here]
        rfl
      have rest := ih next (by omega) (by omega) fun i small => by
        have later := repeats (i + 1) (Nat.succ_lt_succ small)
        rw [show place + 1 + i = place + (i + 1) by omega]
        exact later
      rw [Nat.add_assoc, Nat.add_comm 1 length] at rest
      exact rest

end Reaches

/-! ## Dividing a text -/

/-- The place behind a step. -/
def Step.stop (step : Step) : Nat :=
  step.start + step.literals + step.length

/-- A step that the format can express and that repeats what stood before. -/
structure Step.Fits (limits : Limits) (text : Bytes) (step : Step) : Prop where
  least : limits.shortest ≤ step.length
  most : step.length ≤ limits.longest
  positive : 0 < step.offset
  within : step.offset ≤ step.start + step.literals
  near : step.offset ≤ 65535
  inside : step.stop ≤ text.length
  repeats : ∀ i < step.length, text.getD (step.start + step.literals + i - step.offset) 0
    = text.getD (step.start + step.literals + i) 0

/-- Steps that lead from one place of a text to another. -/
inductive Divides (limits : Limits) (text : Bytes) : Nat → List Step → Nat → Prop
  | nil (place : Nat) : Divides limits text place [] place
  | cons {step : Step} {steps : List Step} {stop : Nat} (fits : step.Fits limits text)
      (rest : Divides limits text step.stop steps stop) :
      Divides limits text step.start (step :: steps) stop

section Steps

variable {limits : Limits} {data : ByteArray}

theorem Divides.le_length {text : Bytes} {start stop : Nat} {steps : List Step}
    (h : Divides limits text start steps stop) (inside : start ≤ text.length) :
    stop ≤ text.length := by
  induction h with
  | nil place => exact inside
  | cons fits rest ih => exact ih fits.inside

/-- No more places agree than are asked for, and those that are counted do agree. -/
theorem agreement_spec (data : ByteArray) (earlier later room : Nat) :
    agreement data earlier later room ≤ room
      ∧ ∀ i < agreement data earlier later room,
        byteAt data (earlier + i) = byteAt data (later + i) := by
  induction room generalizing earlier later with
  | zero => exact ⟨Nat.le_refl 0, fun i small => absurd small (Nat.not_lt_zero i)⟩
  | succ room ih =>
      rw [agreement]
      by_cases same : byteAt data earlier = byteAt data later
      · rw [if_pos same]
        obtain ⟨bound, agree⟩ := ih (earlier + 1) (later + 1)
        refine ⟨Nat.succ_le_succ bound, fun i small => ?_⟩
        cases i with
        | zero => exact same
        | succ i =>
            have next := agree i (Nat.lt_of_succ_lt_succ small)
            rw [show earlier + (i + 1) = earlier + 1 + i by omega,
              show later + (i + 1) = later + 1 + i by omega]
            exact next
      · rw [if_neg same]
        exact ⟨Nat.zero_le _, fun i small => absurd small (Nat.not_lt_zero i)⟩

/-- The places of a table are counted from one and not behind the current one. -/
def Behind (table : Array Nat) (place : Nat) : Prop :=
  ∀ row, table.getD row 0 ≤ place

theorem behind_set {table : Array Nat} {place : Nat} (h : Behind table place) (row : Nat) :
    Behind (table.setIfInBounds row (place + 1)) (place + 1) := by
  intro other
  have old := h other
  rw [Array.getD_eq_getD_getElem?] at old ⊢
  rw [Array.getElem?_setIfInBounds]
  split
  · split
    · exact Nat.le_refl _
    · exact Nat.zero_le _
  · omega

theorem Behind.mono {table : Array Nat} {place later : Nat} (h : Behind table place)
    (le : place ≤ later) : Behind table later :=
  fun row => Nat.le_trans (h row) le

/-- A place of the table where enough bytes agree gives a step. -/
theorem fits_agreement {start place last : Nat} (behind : start ≤ place) (some : last ≠ 0)
    (earlier : last ≤ place) (near : place + 1 - last ≤ 65535) (room : place ≤ data.size)
    (enough : limits.shortest ≤ agreement data (last - 1) place
      (min limits.longest (data.size - limits.tail - place))) :
    Step.Fits limits (Bytes.ofArray data) ⟨start, place - start, place + 1 - last,
      agreement data (last - 1) place (min limits.longest (data.size - limits.tail - place))⟩ := by
  obtain ⟨bound, agree⟩ := agreement_spec data (last - 1) place
    (min limits.longest (data.size - limits.tail - place))
  generalize agreement data (last - 1) place
    (min limits.longest (data.size - limits.tail - place)) = length at enough bound agree ⊢
  have here : start + (place - start) = place := by omega
  refine ⟨enough, by show length ≤ limits.longest; omega, by show 0 < place + 1 - last; omega,
    by show place + 1 - last ≤ start + (place - start); omega, near, ?_, ?_⟩
  · show start + (place - start) + length ≤ (Bytes.ofArray data).length
    rw [Bytes.length_ofArray]
    omega
  · intro i small
    show (Bytes.ofArray data).getD (start + (place - start) + i - (place + 1 - last)) 0
      = (Bytes.ofArray data).getD (start + (place - start) + i) 0
    rw [here, show place + i - (place + 1 - last) = last - 1 + i by omega, ← byteAt_eq,
      ← byteAt_eq]
    exact agree i small

/-- From a place on, the steps that are added divide the text. -/
theorem divides_stepsFrom (long : 0 < limits.shortest) {fuel start place stop : Nat}
    {table : Array Nat} {found result : Array Step} (waiting : start ≤ place)
    (behind : Behind table place)
    (h : stepsFrom limits data fuel start place table found = (result, stop)) :
    ∃ steps, result.toList = found.toList ++ steps
      ∧ Divides limits (Bytes.ofArray data) start steps stop := by
  induction fuel generalizing start place table found with
  | zero =>
      obtain ⟨rfl, rfl⟩ := Prod.mk.inj h
      exact ⟨[], (List.append_nil _).symm, .nil start⟩
  | succ fuel ih =>
      rw [stepsFrom] at h
      by_cases done : data.size < place + limits.margin
      · rw [if_pos done] at h
        obtain ⟨rfl, rfl⟩ := Prod.mk.inj h
        exact ⟨[], (List.append_nil _).symm, .nil start⟩
      · rw [if_neg done] at h
        dsimp only at h
        -- the entry was made before this place is put into the table
        have entry := behind (row (quadAt data place))
        have later := behind_set behind (row (quadAt data place))
        generalize table.getD (row (quadAt data place)) 0 = last at h entry
        split at h
        · next seen =>
            simp only [Bool.and_eq_true, decide_eq_true_eq] at seen
            obtain ⟨⟨some, near⟩, -⟩ := seen
            split at h
            · next enough =>
                -- a step is taken, and the search goes on behind it
                have fits := fits_agreement waiting some entry near (by omega) enough
                have on := Nat.lt_of_lt_of_le long enough
                obtain ⟨steps, eq, divides⟩ := ih (Nat.le_refl _)
                  (later.mono (Nat.add_le_add_left on place)) h
                refine ⟨_ :: steps, ?_, .cons fits ?_⟩
                · rw [eq, Array.toList_push, List.append_assoc]
                  rfl
                · rw [Step.stop]
                  dsimp only
                  rw [Nat.add_sub_cancel' waiting]
                  exact divides
            -- nothing is repeated here: the byte waits to be a new one
            · exact ih (Nat.le_succ_of_le waiting) later h
        · exact ih (Nat.le_succ_of_le waiting) later h

/-- The steps found for a text divide it, up to the bytes that stay new. -/
theorem divides_steps (limits : Limits) (long : 0 < limits.shortest) (data : ByteArray) :
    Divides limits (Bytes.ofArray data) 0 (steps limits data).1.toList (steps limits data).2 := by
  have behind : Behind (Array.replicate 16384 0) 0 := by
    intro row
    rw [Array.getD_eq_getD_getElem?, Array.getElem?_replicate]
    split <;> exact Nat.le_refl 0
  have run : stepsFrom limits data (data.size + 1) 0 0 (Array.replicate 16384 0) #[]
      = ((steps limits data).1, (steps limits data).2) := rfl
  obtain ⟨found, eq, divides⟩ := divides_stepsFrom long (Nat.le_refl 0) behind run
  rw [eq]
  exact divides

end Steps

end RemoteCall.Compression
