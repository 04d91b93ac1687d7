import RemoteCall.Balance.Basic
import RemoteCall.Dictionary

/-!
# Hash rings

Every address of a list takes places on a ring of numbers: for each of its anchors, the address
followed by a decimal number, the four windows of the anchor's digest. A place that several addresses
take belongs to the last of them. A key belongs to the address of the first place at or behind the
first window of the key's digest, and to that of the smallest place where there is none.

The digest is a parameter: a function that gives the windows of a text.
-/

namespace RemoteCall.Balance

/-- The windows of a text's digest, numbered from zero. -/
abbrev Digest := String → Nat → UInt32

/-- A number on the ring and the address that takes it. -/
abbrev Place := UInt32 × String

/-- Places in increasing order, for the address list of a generation. -/
structure Ring where
  generation : Nat
  places : List Place

namespace Ring

/-- How many places an address has by default. -/
def replicas : Nat := 160

/-- The anchor of an address with a number. -/
def anchor (address : String) (i : Nat) : String :=
  address ++ toString i

/-- The places that an address takes, four for each anchor. -/
def placesOf (digest : Digest) (replicas : Nat) (address : String) : List Place :=
  (List.range (replicas / 4)).flatMap fun i =>
    (List.range 4).map fun window => (digest (anchor address i) window, address)

/-- Keeps the last of adjacent places with the same number. -/
def settle : List Place → List Place
  | [] => []
  | [place] => [place]
  | place :: next :: rest =>
    if place.1 = next.1 then settle (next :: rest) else place :: settle (next :: rest)

/-- The ring of an address list. -/
def ofList (digest : Digest) (replicas : Nat) (list : AddressList) : Ring where
  generation := list.generation
  places := settle
    ((list.addresses.flatMap (placesOf digest replicas)).mergeSort fun a b => a.1 ≤ b.1)

/-- The place that a number belongs to. -/
def placeAt (ring : Ring) (number : UInt32) : Option Place :=
  (ring.places.find? fun place => number ≤ place.1).or ring.places.head?

/-- The address that a key belongs to. -/
def select (digest : Digest) (ring : Ring) (key : String) : Option String :=
  (ring.placeAt (digest key 0)).map (·.2)

end Ring

/-- The rings of some keys, each for the list that was last used with the key. -/
abbrev Rings := Dictionary Ring

/-- The ring of a list, taken over from the last use of the key if that was with the same list. -/
def Rings.ringFor (digest : Digest) (rings : Rings) (list : AddressList) (key : String) :
    Ring × Rings :=
  match (rings.get? key).filter fun ring => ring.generation = list.generation with
  | some ring => (ring, rings)
  | none =>
    let ring := Ring.ofList digest Ring.replicas list
    (ring, rings.insert key ring)

end RemoteCall.Balance
