import RemoteCall.Net.SocketAddress
import RemoteCall.Proofs.Decimal.Printed

/-! # Where the port of an address begins

    The text of a socket address ends in a colon and the digits of its port,
    and there is no colon among these.  So if the texts of two socket
    addresses differ in digits at the end only, they have the same host, and
    the ports differ in these digits (`port_of_text_append`). -/

namespace RemoteCall.SocketAddress

/-- The text of a socket address before the colon and the port. -/
def hostText (address : SocketAddress) : String :=
  match address.host with
  | .v4 a b c d => HostAddress.pointText a b c d
  | .v6 groups =>
    let scope := if address.scope = 0 then "" else "%" ++ toString address.scope.toNat
    "[" ++ HostAddress.groupsText groups.toList ++ scope ++ "]"

/-- The digits of the port of a socket address. -/
def portText (address : SocketAddress) : String :=
  toString address.port.toNat

theorem toList_text (address : SocketAddress) :
    address.text.toList = address.hostText.toList ++ ':' :: address.portText.toList := by
  rw [text, hostText]
  cases address.host with
  | v4 => exact String.toList_append.trans (congrArg _ String.toList_append)
  | v6 => exact String.toList_append.trans (congrArg _ String.toList_append)

theorem digitChar_ne_colon : ∀ d < 10, Nat.digitChar d ≠ ':' := by
  decide

theorem colon_not_mem_toString (n : Nat) : ':' ∉ (toString n).toList := by
  rw [Decimal.toList_toString]
  intro mem
  obtain ⟨d, less, same⟩ := Decimal.exists_digitChar_of_mem_toDigits (by decide) mem
  exact digitChar_ne_colon d less same.symm

/-- A text is cut in one way at the last character of a kind. -/
theorem eq_of_last_eq {α : Type} {c : α} {front front' back back' : List α}
    (same : front ++ c :: back = front' ++ c :: back') (last : c ∉ back) (last' : c ∉ back') :
    front = front' ∧ back = back' := by
  rcases List.append_eq_append_iff.mp same with ⟨more, long, rest⟩ | ⟨more, long, rest⟩
  all_goals
    cases more with
    | nil => simp_all
    | cons d more =>
        obtain ⟨-, rest⟩ := List.cons.inj rest
        simp [rest] at last last'

/-- Socket addresses whose texts differ in digits at the end differ in the port only. -/
theorem port_of_text_append {address other : SocketAddress} {digits : String}
    (noColon : ':' ∉ digits.toList) (same : address.text = other.text ++ digits) :
    address.hostText = other.hostText ∧ address.portText = other.portText ++ digits := by
  have texts := congrArg String.toList same
  rw [String.toList_append, toList_text, toList_text, List.append_assoc, List.cons_append,
    ← String.toList_append] at texts
  have last : ':' ∉ (other.portText ++ digits).toList := by
    rw [String.toList_append, List.mem_append, not_or]
    exact ⟨colon_not_mem_toString _, noColon⟩
  obtain ⟨hosts, ports⟩ := eq_of_last_eq texts (colon_not_mem_toString _) last
  exact ⟨String.toList_inj.mp hosts, String.toList_inj.mp ports⟩

end RemoteCall.SocketAddress
