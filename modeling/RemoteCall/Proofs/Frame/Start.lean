import RemoteCall.Frame.Header

/-! # What a buffer starts with

    `frameLength` looks at as much of a header as has arrived.  All it can find
    is listed by `Start`: bytes that are not the mark, a part of the mark,
    another version, a part of the length, or a length.  Every buffer starts in
    one of these ways (`start`), and each way has its answer
    (`frameLength_strange` to `frameLength_announced`), so whatever is to be
    known about headers is one case analysis.

    More bytes behind a buffer never change an answer that was given
    (`frameLength_append`), but for the part of a bad mark that is told
    (`arrivedMark`). -/

namespace RemoteCall.Frame

/-- The bytes of a mark as far as they have arrived; the others read as zero. -/
def arrivedMark (buffer : Bytes) : Bytes :=
  buffer.take 4 ++ List.replicate (4 - (buffer.take 4).length) 0

/-- What an announced length is worth. -/
def judge (limit length : Nat) : Except Fault (Option Nat) :=
  if length < headerLength then .error (.frameTooShort length)
  else if limit < length then .error (.frameTooLong length)
  else .ok (some length)

/-- The ways in which a buffer can start. -/
inductive Start : Bytes → Prop
  /-- The first bytes are not those of the mark. -/
  | strange {buffer : Bytes} (h : ¬ buffer.take 4 <+: mark) : Start buffer
  /-- Nothing but a part of the mark has arrived. -/
  | short {buffer : Bytes} (h : buffer <+: mark) : Start buffer
  /-- Behind the mark stands another version. -/
  | foreign {found : UInt8} (rest : Bytes) (h : found ≠ version) : Start (mark ++ found :: rest)
  /-- Behind the version stands a part of the length. -/
  | unfinished {few : Bytes} (h : few.length < 4) : Start (mark ++ version :: few)
  /-- Behind the version stands the length. -/
  | announced {field : Bytes} (rest : Bytes) (h : field.length = 4) :
      Start (mark ++ version :: (field ++ rest))

theorem start (buffer : Bytes) : Start buffer := by
  by_cases marked : buffer.take 4 <+: mark
  · by_cases long : buffer.length ≤ 4
    · rw [List.take_of_length_le long] at marked
      exact .short marked
    -- more bytes than the mark has: it is all there, and the version stands behind it
    · have full : buffer.take 4 = mark := by
        apply marked.eq_of_length
        rw [List.length_take]
        show min 4 buffer.length = 4
        omega
      have split : buffer = mark ++ buffer.drop 4 := by rw [← full, List.take_append_drop]
      rw [split]
      cases tail : buffer.drop 4 with
      | nil =>
          have := List.drop_eq_nil_iff.mp tail
          omega
      | cons found rest =>
          by_cases known : found = version
          · rw [known]
            by_cases few : rest.length < 4
            · exact .unfinished few
            · rw [← List.take_append_drop 4 rest]
              refine .announced (rest.drop 4) ?_
              rw [List.length_take]
              omega
          · exact .foreign rest known
  · exact .strange marked

/-! ## Answers -/

section Answers

variable (limit : Nat)

theorem frameLength_strange {buffer : Bytes} (h : ¬ buffer.take 4 <+: mark) :
    frameLength limit buffer = .error (.badMagic (arrivedMark buffer)) := by
  rw [List.prefix_iff_eq_take] at h
  rw [frameLength, if_pos h, arrivedMark]

theorem frameLength_short {buffer : Bytes} (h : buffer <+: mark) :
    frameLength limit buffer = .ok none := by
  have long : buffer.length ≤ 4 := h.length_le
  have marked := List.prefix_iff_eq_take.mp h
  rw [frameLength, List.take_of_length_le long, if_neg (fun other => other marked),
    List.drop_eq_nil_of_le long]

/-- A whole mark passes; what follows decides. -/
theorem frameLength_marked (found : UInt8) (rest : Bytes) :
    frameLength limit (mark ++ found :: rest) =
      if found ≠ version then .error (.badVersion found)
      else
        match Bytes.cut? 4 rest with
        | none => .ok none
        | some (field, _) => judge limit (Bytes.ofBigEndian field) :=
  rfl

theorem frameLength_foreign {found : UInt8} (h : found ≠ version) (rest : Bytes) :
    frameLength limit (mark ++ found :: rest) = .error (.badVersion found) := by
  rw [frameLength_marked, if_pos h]

theorem frameLength_unfinished {few : Bytes} (h : few.length < 4) :
    frameLength limit (mark ++ version :: few) = .ok none := by
  rw [frameLength_marked, if_neg (fun other => other rfl), Bytes.cut?_eq, if_neg (by omega)]

theorem frameLength_announced {field : Bytes} (h : field.length = 4) (rest : Bytes) :
    frameLength limit (mark ++ version :: (field ++ rest))
      = judge limit (Bytes.ofBigEndian field) := by
  have long : 4 ≤ (field ++ rest).length := by
    rw [List.length_append]
    omega
  rw [frameLength_marked, if_neg (fun other => other rfl), Bytes.cut?_eq, if_pos long, ← h,
    List.take_left]

end Answers

/-! ## More bytes -/

/-- A length that is good enough is within the bounds. -/
theorem judge_eq_ok_iff {limit length : Nat} {answer : Option Nat} :
    judge limit length = .ok answer
      ↔ headerLength ≤ length ∧ length ≤ limit ∧ answer = some length := by
  rw [judge]
  constructor
  · intro h
    split at h
    · exact nomatch h
    · split at h
      · exact nomatch h
      · exact ⟨by omega, by omega, (Except.ok.inj h).symm⟩
  · rintro ⟨least, most, rfl⟩
    rw [if_neg (by omega), if_neg (by omega)]

theorem judge_eq_error {limit length : Nat} {fault : Fault}
    (h : judge limit length = .error fault) :
    fault = .frameTooShort length ∨ fault = .frameTooLong length := by
  rw [judge] at h
  split at h
  · exact Or.inl (Except.error.inj h).symm
  · split at h
    · exact Or.inr (Except.error.inj h).symm
    · exact nomatch h

/-- A length is known once the header is there up to it, and good enough. -/
theorem frameLength_eq_some_iff {limit length : Nat} {buffer : Bytes} :
    frameLength limit buffer = .ok (some length) ↔
      ∃ field rest, field.length = 4 ∧ buffer = mark ++ version :: (field ++ rest)
        ∧ length = Bytes.ofBigEndian field ∧ headerLength ≤ length ∧ length ≤ limit := by
  constructor
  · intro h
    cases start buffer with
    | strange strange => rw [frameLength_strange limit strange] at h; exact nomatch h
    | short short => rw [frameLength_short limit short] at h; exact nomatch h
    | foreign rest foreign => rw [frameLength_foreign limit foreign] at h; exact nomatch h
    | unfinished few => rw [frameLength_unfinished limit few] at h; exact nomatch h
    | announced rest four =>
        rw [frameLength_announced limit four] at h
        obtain ⟨least, most, same⟩ := judge_eq_ok_iff.mp h
        obtain rfl := Option.some.inj same
        exact ⟨_, rest, four, rfl, rfl, least, most⟩
  · rintro ⟨field, rest, four, rfl, rfl, least, most⟩
    rw [frameLength_announced limit four]
    exact judge_eq_ok_iff.mpr ⟨least, most, rfl⟩

/-- A known length stays known. -/
theorem frameLength_append {limit length : Nat} {buffer : Bytes}
    (h : frameLength limit buffer = .ok (some length)) (more : Bytes) :
    frameLength limit (buffer ++ more) = .ok (some length) := by
  obtain ⟨field, rest, four, rfl, same, least, most⟩ := frameLength_eq_some_iff.mp h
  refine frameLength_eq_some_iff.mpr ⟨field, rest ++ more, four, ?_, same, least, most⟩
  simp only [List.append_assoc, List.cons_append]

/-- The ways in which a header can be at fault: the mark, and then the bytes that have arrived of it
are told; or something that more bytes do not change. -/
theorem frameLength_append_error {limit : Nat} {buffer : Bytes} {fault : Fault}
    (h : frameLength limit buffer = .error fault) :
    (fault = .badMagic (arrivedMark buffer) ∧ ∀ more,
        frameLength limit (buffer ++ more) = .error (.badMagic (arrivedMark (buffer ++ more))))
      ∨ ((∃ found, fault = .badVersion found) ∨ (∃ length, fault = .frameTooShort length)
          ∨ ∃ length, fault = .frameTooLong length)
        ∧ ∀ more, frameLength limit (buffer ++ more) = .error fault := by
  cases start buffer with
  | strange strange =>
      rw [frameLength_strange limit strange] at h
      refine Or.inl ⟨(Except.error.inj h).symm, fun more => ?_⟩
      apply frameLength_strange
      -- were the longer buffer marked, so would be its front part
      intro marked
      apply strange
      refine List.IsPrefix.trans ?_ marked
      rw [List.take_append]
      exact List.prefix_append _ _
  | short short => rw [frameLength_short limit short] at h; exact nomatch h
  | foreign rest foreign =>
      rw [frameLength_foreign limit foreign] at h
      obtain rfl := Except.error.inj h
      refine Or.inr ⟨Or.inl ⟨_, rfl⟩, fun more => ?_⟩
      rw [List.append_assoc, List.cons_append]
      exact frameLength_foreign limit foreign _
  | unfinished few => rw [frameLength_unfinished limit few] at h; exact nomatch h
  | announced rest four =>
      rw [frameLength_announced limit four] at h
      refine Or.inr ⟨Or.inr ?_, fun more => ?_⟩
      · rcases judge_eq_error h with rfl | rfl
        · exact Or.inl ⟨_, rfl⟩
        · exact Or.inr ⟨_, rfl⟩
      · rw [List.append_assoc, List.cons_append, List.append_assoc,
          frameLength_announced limit four]
        exact h

end RemoteCall.Frame
