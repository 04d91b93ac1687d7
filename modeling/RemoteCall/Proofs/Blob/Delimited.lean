import RemoteCall.Blob.Parameter
import RemoteCall.Proofs.Blob.Values

/-! # Blobs delimit themselves

    Every reader of a part is steady: a number, a text or a list tells its own
    length, so bytes that come later change nothing (`steady_readNat`,
    `steady_readList`, `steady_read`).  With what readers take of written values
    this makes blobs self-delimiting.  The blob of a parameter is read as its
    value, no part of it is read as anything, and nothing may follow it
    (`ofBlob_toBlob`).

    The induction is on the type of the parameter.  The keys of a map stand in
    increasing order, so the entries make up the map again
    (`ofList_toList`). -/

namespace RemoteCall.Blob

/-! ## Steady readers -/

theorem steady_take (n : Nat) (missing : Flaw) : Steady (take n missing) := by
  intro bytes rest value found more
  rw [take, Bytes.cut?_eq] at found ⊢
  by_cases enough : n ≤ bytes.length
  · have longer : n ≤ (bytes ++ more).length := by
      rw [List.length_append]
      omega
    rw [if_pos enough] at found
    obtain ⟨rfl, rfl⟩ := Prod.mk.inj (Except.ok.inj found)
    rw [if_pos longer, List.take_append_of_le_length enough, List.drop_append_of_le_length enough]
  · rw [if_neg enough] at found
    cases found

theorem steady_readByte : Steady readByte := by
  intro bytes rest value found more
  cases bytes with
  | nil => exact nomatch found
  | cons first others =>
      obtain ⟨rfl, rfl⟩ := Prod.mk.inj (Except.ok.inj found)
      rfl

theorem steady_readFixed (width : Nat) : Steady (readFixed width) :=
  (steady_take width .endOfNumber).last _

theorem steady_readNat (wide : Bool) : Steady (readNat wide) := by
  refine steady_readByte.bind fun mark => ?_
  repeat' split
  all_goals first
    | exact steady_pure _
    | exact steady_throw _
    | exact steady_readFixed _

theorem steady_readUnsigned (scalar : Scalar) (bits : Nat) : Steady (readUnsigned scalar bits) := by
  refine (steady_readNat false).bind fun n => ?_
  split
  · exact steady_pure _
  · exact steady_throw _

theorem steady_readSigned (scalar : Scalar) (bits : Nat) : Steady (readSigned scalar bits) := by
  refine (steady_readNat false).bind fun n => ?_
  dsimp only
  split
  · exact steady_pure _
  · exact steady_throw _

theorem steady_readBool : Steady readBool := by
  refine steady_readByte.bind fun tag => ?_
  split
  · exact steady_pure _
  · exact steady_pure _
  · exact steady_throw _

/-- What stands behind the first byte of a character. -/
theorem steady_others (first : Bytes) : Steady (do
    let others ← take (Utf8.width (first.headD 0) - 1) .badChar
    match Utf8.decode (first ++ others) with
    | .ok text =>
      match text.toList with
      | [c] => return c
      | _ => throw .badChar
    | .error _ => throw .badChar : Reader Char) := by
  refine (steady_take _ .badChar).bind fun others => ?_
  split
  · split
    · exact steady_pure _
    · exact steady_throw _
  · exact steady_throw _

theorem steady_readChar : Steady readChar := by
  refine (steady_take 1 .endOfNumber).bind fun first => ?_
  dsimp only
  split
  · exact (steady_throw _).bind fun _ => steady_others first
  · exact steady_others first

theorem steady_readText : Steady readText := by
  refine (steady_readNat false).bind fun n => (steady_take n .endOfText).bind fun bytes => ?_
  split
  · exact steady_pure _
  · exact steady_throw _

theorem steady_readMany {α : Type} {readItem : Reader α} (item : Steady readItem) (n : Nat)
    (found : List α) : Steady (readMany readItem n found) := by
  induction n generalizing found with
  | zero => exact steady_pure _
  | succ n ih =>
      intro bytes rest value all more
      rw [readMany] at all ⊢
      cases first : readItem bytes with
      | error flaw =>
          rw [first] at all
          cases all
      | ok outcome =>
          rw [first] at all
          rw [item first more]
          exact ih _ all more

theorem steady_readList {α : Type} {readItem : Reader α} (item : Steady readItem) :
    Steady (readList readItem) :=
  (steady_readNat false).bind fun n => steady_readMany item n []

theorem steady_readOption {α : Type} {readItem : Reader α} (item : Steady readItem) :
    Steady (readOption readItem) := by
  refine steady_readByte.bind fun tag => ?_
  split
  · exact steady_pure _
  · exact item.last _
  · exact steady_throw _

/-- The readers of two values one behind the other. -/
theorem steady_pair {α β : Type} {first : Reader α} {second : Reader β} (one : Steady first)
    (other : Steady second) : Steady (do return (← first, ← second) : Reader (α × β)) :=
  one.bind fun _ => other.last _

/-- The reader of a kind of scalars is steady. -/
theorem Scalar.steady_read (scalar : Scalar) : Steady scalar.read := by
  cases scalar with
  | u8 => exact steady_readByte
  | u16 => exact (steady_readUnsigned .u16 16).last _
  | u32 => exact (steady_readUnsigned .u32 32).last _
  | u64 => exact (steady_readNat false).last _
  | u128 => exact (steady_readNat true).last _
  | i8 => exact steady_readByte.last _
  | i16 => exact (steady_readSigned .i16 16).last _
  | i32 => exact (steady_readSigned .i32 32).last _
  | i64 => exact (steady_readNat false).last _
  | i128 => exact (steady_readNat true).last _
  | bool => exact steady_readBool
  | f32 => exact (steady_readFixed 4).last _
  | f64 => exact (steady_readFixed 8).last _
  | char => exact steady_readChar
  | unit => exact steady_pure _
  | text => exact steady_readText

/-! ## Whole blobs -/

theorem ofBytes_of_error {α : Type} {reader : Reader α} {bytes : Bytes} {flaw : Flaw}
    (failed : reader bytes = .error flaw) :
    ofBytes reader bytes = .error (.unreadable flaw.message) := by
  rw [ofBytes, readAll, failed]
  rfl

theorem ofBytes_of_left {α : Type} {reader : Reader α} {bytes left : Bytes} {value : α}
    (found : reader bytes = .ok (value, left)) (something : left ≠ []) :
    ofBytes reader bytes = .error (.unreadable Flaw.leftover.message) := by
  rw [ofBytes, readAll, found]
  cases left with
  | nil => exact absurd rfl something
  | cons first others => rfl

/-! ## Parameters of any type -/

/-- The entries of a map make up the map. -/
theorem ofList_toList {κ α : Type} {order : κ → κ → Ordering} [Std.TransCmp order]
    [Std.LawfulEqCmp order] (entries : Std.ExtTreeMap κ α order) :
    Std.ExtTreeMap.ofList entries.toList order = entries := by
  refine Std.ExtTreeMap.ext_getElem? fun key => ?_
  cases found : entries[key]? with
  | some value =>
      exact Std.ExtTreeMap.getElem?_ofList_of_mem Std.ReflCmp.compare_self
        entries.distinct_keys_toList (Std.ExtTreeMap.mem_toList_iff_getElem?_eq_some.mpr found)
  | none =>
      let same : BEq κ := ⟨fun a b => order a b == .eq⟩
      have lawful : Std.LawfulBEqCmp order := ⟨beq_iff_eq.symm⟩
      refine Std.ExtTreeMap.getElem?_ofList_of_contains_eq_false ?_
      refine Bool.eq_false_iff.mpr fun there => ?_
      obtain ⟨other, mem, eq⟩ := List.contains_iff_exists_mem_beq.mp there
      obtain ⟨⟨_, value⟩, isEntry, rfl⟩ := List.mem_map.mp mem
      obtain rfl := Std.LawfulEqCmp.eq_of_compare (beq_iff_eq.mp eq)
      exact nomatch found.symm.trans (Std.ExtTreeMap.mem_toList_iff_getElem?_eq_some.mp isEntry)

namespace Parameter

/-- Every list and every map within a value has fewer than `2 ^ 64` items: lengths are numbers of
sixty-four bits. -/
def Counted : {α : Type} → Parameter α → α → Prop
  | _, .plain _, _ => True
  | _, .list item, items => items.length < 2 ^ 64 ∧ ∀ part ∈ items, item.Counted part
  | _, .option item, value => ∀ part ∈ value, item.Counted part
  | _, .pair first second, value => first.Counted value.1 ∧ second.Counted value.2
  | _, @map _ _ _ _ _ key item, entries =>
    entries.size < 2 ^ 64 ∧ ∀ entry ∈ entries.toList, key.Counted entry.1 ∧ item.Counted entry.2

theorem steady_read {α : Type} (parameter : Parameter α) : Steady parameter.read := by
  induction parameter with
  | plain scalar => exact scalar.steady_read
  | list item ih => exact steady_readList ih
  | option item ih => exact steady_readOption ih
  | pair first second ihFirst ihSecond => exact steady_pair ihFirst ihSecond
  | map key item ihKey ihItem => exact (steady_readList (steady_pair ihKey ihItem)).last _

/-- The reader of a type takes what was written for a value of the type. -/
theorem takes_read {α : Type} (parameter : Parameter α) {value : α}
    (counted : parameter.Counted value) (short : (parameter.write value).length < 2 ^ 64) :
    Takes parameter.read (parameter.write value) value := by
  induction parameter with
  | plain scalar => exact scalar.takes_read short
  | list item ih =>
      obtain ⟨number, parts⟩ := counted
      refine takes_readList (fun part mem => ih (parts part mem) ?_) number
      exact Nat.lt_of_le_of_lt (length_le_writeList item.write mem) short
  | option item ih =>
      cases value with
      | none => exact fun rest => rfl
      | some part =>
          have behind : ∀ other ∈ some part, Takes item.read (item.write other) other := by
            rintro _ ⟨⟩
            exact ih (counted part rfl) (Nat.lt_of_succ_lt short)
          exact takes_readOption behind
  | pair first second ihFirst ihSecond =>
      rw [write, List.length_append] at short
      exact (ihFirst counted.1 (by omega)).bind (ihSecond counted.2 (by omega)).last
  | map key item ihKey ihItem =>
      obtain ⟨number, parts⟩ := counted
      let writeEntry (entry : _ × _) := key.write entry.1 ++ item.write entry.2
      have both (entry : _ × _) : (writeEntry entry).length
          = (key.write entry.1).length + (item.write entry.2).length := List.length_append
      have entries : Takes (readList (do return (← key.read, ← item.read)))
          (writeList writeEntry value.toList) value.toList := by
        refine takes_readList (fun entry mem => ?_) (by rwa [Std.ExtTreeMap.length_toList])
        have within : (writeEntry entry).length < 2 ^ 64 :=
          Nat.lt_of_le_of_lt (length_le_writeList writeEntry mem) short
        rw [both] at within
        have counted := parts entry mem
        exact (ihKey counted.1 (by omega)).bind (ihItem counted.2 (by omega)).last
      exact entries.last_of_eq (ofList_toList value)

/-- A blob is no longer than the limit, it is read as its value, no part of it is read as anything,
and nothing may follow it. -/
theorem ofBlob_toBlob {α : Type} (parameter : Parameter α) {value : α} {blob : Bytes}
    (counted : parameter.Counted value) (written : parameter.toBlob value = .ok blob) :
    blob.length ≤ sizeLimit ∧ parameter.ofBlob blob = .ok value
      ∧ (∀ front, front <+: blob → front ≠ blob → ∃ fault, parameter.ofBlob front = .error fault)
      ∧ ∀ more, more ≠ [] →
        parameter.ofBlob (blob ++ more) = .error (.unreadable Flaw.leftover.message) := by
  rw [toBlob, bounded] at written
  split at written
  · next fits =>
      obtain rfl := Except.ok.inj written
      have takes := parameter.takes_read counted (Nat.lt_of_le_of_lt fits (by decide))
      refine ⟨fits, ofBytes_of_takes takes, ?_, fun more something => ?_⟩
      · rintro front ⟨missing, whole⟩ part
        rw [← whole] at takes part
        have some : missing ≠ [] := fun none => part (by rw [none, List.append_nil])
        obtain ⟨flaw, failed⟩ := takes.fails_of_append parameter.steady_read some
        exact ⟨_, ofBytes_of_error failed⟩
      · exact ofBytes_of_left (takes more) something
  · cases written

/-- A map of two entries, written in increasing order of the keys. -/
theorem ofBlob_toBlob_map :
    let parameter : Parameter (Std.ExtTreeMap UInt16 (List String) compare) :=
      .map (.plain .u16) (.list (.plain .text))
    let value : Std.ExtTreeMap UInt16 (List String) compare :=
      .ofList [((300 : UInt16), ["a"]), (7, [])] compare
    let blob : Bytes := [2, 7, 0, 251, 44, 1, 1, 1, 97]
    parameter.Counted value ∧ parameter.toBlob value = .ok blob
      ∧ parameter.ofBlob blob = .ok value
      ∧ (∃ fault, parameter.ofBlob [2, 7, 0, 251] = .error fault)
      ∧ parameter.ofBlob (blob ++ [0]) = .error (.unreadable Flaw.leftover.message) := by
  intro parameter value blob
  have entries : value.toList = [((7 : UInt16), []), (300, ["a"])] := by decide
  have counted : parameter.Counted value := by
    refine ⟨by decide, fun entry mem => ⟨trivial, ?_⟩⟩
    rw [entries] at mem
    have short : entry.2.length < 2 ^ 64 := by
      revert entry
      decide
    exact ⟨short, fun _ _ => trivial⟩
  have written : parameter.toBlob value = .ok blob := rfl
  obtain ⟨-, back, parts, more⟩ := ofBlob_toBlob parameter counted written
  exact ⟨counted, written, back, parts _ ⟨[44, 1, 1, 1, 97], rfl⟩ (by decide),
    more [0] (List.cons_ne_nil _ _)⟩

end Parameter

/-! ## Forms -/

namespace Form

variable {α β : Type}

/-- What is written of a value is read as this value. -/
def Keeps (form : Form α) (value : α) : Prop :=
  ∀ {blob : Bytes}, form.write value = .ok blob → form.read blob = .ok value

/-- A record keeps its values when its fields do and make it up again. -/
theorem keeps_record {form : Form β} {name : String} {fields : α → β} {make : β → α} {value : α}
    (parts : form.Keeps (fields value)) (whole : make (fields value) = value) :
    (form.record name fields make).Keeps value := by
  intro blob written
  show (form.read blob).map make = .ok value
  rw [parts written]
  exact congrArg Except.ok whole

theorem Keeps.ofBlob_eq {form : Form α} {value : α} (keeps : form.Keeps value) {blob : Bytes}
    (written : form.toBlob value = .ok blob) : form.ofBlob blob = .ok value := by
  rw [toBlob] at written
  cases found : form.write value with
  | error reason =>
      rw [found] at written
      exact nomatch written
  | ok bytes =>
      rw [found] at written
      obtain rfl : bytes = blob := Except.ok.inj written
      rw [ofBlob, keeps found]
      rfl

end Form

/-- A type that is built from scalars keeps its values. -/
theorem Parameter.keeps_form {α : Type} (parameter : Parameter α) (name : String) {value : α}
    (counted : parameter.Counted value) : (parameter.form name).Keeps value := by
  intro blob written
  replace written : (if (parameter.write value).length ≤ sizeLimit then .ok (parameter.write value)
    else .error Flaw.tooLarge.message) = (.ok blob : Except String Bytes) := written
  split at written
  · next fits =>
      obtain rfl := Except.ok.inj written
      show (readAll parameter.read _).mapError Flaw.message = .ok value
      rw [readAll_of_takes (parameter.takes_read counted (Nat.lt_of_le_of_lt fits (by decide)))]
      rfl
  · exact nomatch written

end RemoteCall.Blob
