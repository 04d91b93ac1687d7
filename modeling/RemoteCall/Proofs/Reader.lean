import RemoteCall.Bytes

/-! # Readers that take exactly what was written

    Blobs and JSON texts are read by functions that take a value off the front
    of some bytes.  A reader TAKES a value spelled by some bytes when it finds
    the value in front of whatever follows and leaves just that
    (`Takes`).  The notion composes: readers in sequence take the values
    spelled one behind the other (`Takes.bind`), so the round trip of a record
    is one step for each of its fields.

    Some readers only stop in front of certain bytes, as the digits of a number
    do.  `TakesBefore` names these bytes, and `Takes` is the case without a
    condition.

    A reader is STEADY when what it finds in front of some bytes it also finds
    in front of more of them (`Steady`).  A steady reader that takes a value
    fails in front of the first bytes of its spelling
    (`Takes.fails_of_append`). -/

namespace RemoteCall

variable {ε α β : Type}

/-- In front of any bytes of a kind, the reader finds the value and leaves these
    bytes. -/
def TakesBefore (follows : Bytes → Prop) (reader : StateT Bytes (Except ε) α)
    (spelled : Bytes) (value : α) : Prop :=
  ∀ rest, follows rest → reader (spelled ++ rest) = .ok (value, rest)

/-- In front of any bytes, the reader finds the value and leaves these bytes. -/
def Takes (reader : StateT Bytes (Except ε) α) (spelled : Bytes) (value : α) : Prop :=
  ∀ rest, reader (spelled ++ rest) = .ok (value, rest)

theorem Takes.before {follows : Bytes → Prop} {reader : StateT Bytes (Except ε) α}
    {spelled : Bytes} {value : α} (h : Takes reader spelled value) :
    TakesBefore follows reader spelled value :=
  fun rest _ => h rest

/-- Once a reader has found a value, the readers behind it go on with it. -/
theorem bind_of_ok {x : StateT Bytes (Except ε) α} {f : α → StateT Bytes (Except ε) β}
    {bytes s : Bytes} {a : α} (h : x bytes = .ok (a, s)) : (x >>= f) bytes = f a s := by
  show (x bytes >>= fun p => f p.1 p.2) = f a s
  rw [h]
  rfl

/-- Values spelled one behind the other are taken one after the other. -/
theorem Takes.bind {x : StateT Bytes (Except ε) α} {f : α → StateT Bytes (Except ε) β}
    {first second : Bytes} {a : α} {b : β} (hx : Takes x first a)
    (hf : Takes (f a) second b) : Takes (x >>= f) (first ++ second) b := by
  intro rest
  rw [List.append_assoc, bind_of_ok (hx (second ++ rest))]
  exact hf rest

/-- The last value of a sequence, from which the result is made. -/
theorem Takes.last {x : StateT Bytes (Except ε) α} {g : α → β} {spelled : Bytes} {a : α}
    (hx : Takes x spelled a) :
    Takes (x >>= fun a => Pure.pure (g a)) spelled (g a) := by
  intro rest
  rw [bind_of_ok (hx rest)]
  rfl

/-- The last value of a sequence, where the result is made by a conversion that inverts another. -/
theorem Takes.last_of_eq {x : StateT Bytes (Except ε) α} {g : α → β} {spelled : Bytes} {a : α}
    {b : β} (hx : Takes x spelled a) (back : g a = b) :
    Takes (x >>= fun a => Pure.pure (g a)) spelled b :=
  back ▸ hx.last

/-! ## Steady readers -/

/-- What is found in front of some bytes is also found in front of more of them. -/
def Steady (reader : StateT Bytes (Except ε) α) : Prop :=
  ∀ ⦃bytes rest : Bytes⦄ ⦃value : α⦄, reader bytes = .ok (value, rest) →
    ∀ more, reader (bytes ++ more) = .ok (value, rest ++ more)

theorem steady_pure (a : α) : Steady (pure a : StateT Bytes (Except ε) α) := by
  intro bytes rest value found more
  obtain ⟨rfl, rfl⟩ := Prod.mk.inj (Except.ok.inj found)
  rfl

theorem steady_throw (flaw : ε) : Steady (throw flaw : StateT Bytes (Except ε) α) :=
  fun _ _ _ found => nomatch found

/-- Readers in sequence are steady if each of them is. -/
theorem Steady.bind {x : StateT Bytes (Except ε) α} {f : α → StateT Bytes (Except ε) β}
    (first : Steady x) (last : ∀ a, Steady (f a)) : Steady (x >>= f) := by
  intro bytes rest value found more
  cases taken : x bytes with
  | error flaw =>
      have failed : (x >>= f) bytes = .error flaw := by
        show (x bytes >>= fun p => f p.1 p.2) = _
        rw [taken]
        rfl
      exact nomatch failed.symm.trans found
  | ok outcome =>
      rw [bind_of_ok taken] at found
      rw [bind_of_ok (first taken more)]
      exact last outcome.1 found more

/-- The last value of a sequence, from which the result is made. -/
theorem Steady.last {x : StateT Bytes (Except ε) α} (steady : Steady x) (g : α → β) :
    Steady (x >>= fun a => Pure.pure (g a)) :=
  steady.bind fun _ => steady_pure _

/-- A part of what spells a value is not enough. -/
theorem Takes.fails_of_append {reader : StateT Bytes (Except ε) α} {front more : Bytes} {value : α}
    (takes : Takes reader (front ++ more) value) (steady : Steady reader) (missing : more ≠ []) :
    ∃ flaw, reader front = .error flaw := by
  cases found : reader front with
  | error flaw => exact ⟨flaw, rfl⟩
  | ok outcome =>
      have whole := takes []
      rw [List.append_nil, steady found more] at whole
      have none : outcome.2 ++ more = [] := (Prod.mk.inj (Except.ok.inj whole)).2
      exact absurd (List.append_eq_nil_iff.mp none).2 missing

end RemoteCall
