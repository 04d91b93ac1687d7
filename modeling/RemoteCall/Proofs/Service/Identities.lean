import RemoteCall.Service.Provider

/-! # Which service a request is for

    Services are published one after another, each under an identity of three
    texts, and found by the key into which these run together.  The first
    service under a key stays, so a request is handled by the service that was
    first published with its key (`get?_run`, `handle_eq`).

    Identities that agree in two of their parts have different keys
    (`ServiceIdentity.eq_of_key_eq`), but text can move from one part into the
    next.  So a request is handled by the service that was first published
    under its own identity where the first service with its key has that
    identity (`dispatches_run`), and else by a foreign one
    (`serves_other_group`). -/

namespace RemoteCall

/-! ## Keys -/

namespace ServiceIdentity

/-- Whether two of the three parts of two identities are equally long, as are parts that are equal. -/
inductive Resembles (a b : ServiceIdentity) : Prop where
  | nameAndGroup (name : a.name.length = b.name.length) (group : a.group.length = b.group.length)
  | nameAndVersion (name : a.name.length = b.name.length)
    (version : a.version.length = b.version.length)
  | groupAndVersion (group : a.group.length = b.group.length)
    (version : a.version.length = b.version.length)

/-- Where the joint is known, the parts of joined texts are. -/
theorem append_inj_left {a b c d : String} (same : a ++ b = c ++ d) (length : a.length = c.length) :
    a = c ∧ b = d := by
  rw [← String.toList_inj, String.toList_append, String.toList_append] at same
  rw [← String.length_toList, ← String.length_toList] at length
  obtain ⟨front, back⟩ := List.append_inj same length
  exact ⟨String.toList_inj.mp front, String.toList_inj.mp back⟩

theorem append_inj_right {a b c d : String} (same : a ++ b = c ++ d) (length : b.length = d.length) :
    a = c ∧ b = d := by
  have whole := congrArg String.length same
  rw [String.length_append, String.length_append] at whole
  exact append_inj_left same (by omega)

/-- Identities with parts of equal lengths have different keys. -/
theorem eq_of_key_eq {a b : ServiceIdentity} (resembles : a.Resembles b) (same : a.key = b.key) :
    a = b := by
  obtain ⟨name, group, version⟩ := a
  obtain ⟨name', group', version'⟩ := b
  have same : name ++ group ++ version = name' ++ group' ++ version' := same
  have parts : name = name' ∧ group = group' ∧ version = version' := by
    cases resembles with
    | nameAndGroup nameLength groupLength =>
        rw [String.append_assoc, String.append_assoc] at same
        obtain ⟨names, rest⟩ := append_inj_left same nameLength
        exact ⟨names, append_inj_left rest groupLength⟩
    | nameAndVersion nameLength versionLength =>
        obtain ⟨front, versions⟩ := append_inj_right same versionLength
        obtain ⟨names, groups⟩ := append_inj_left front nameLength
        exact ⟨names, groups, versions⟩
    | groupAndVersion groupLength versionLength =>
        obtain ⟨front, versions⟩ := append_inj_right same versionLength
        obtain ⟨names, groups⟩ := append_inj_right front groupLength
        exact ⟨names, groups, versions⟩
  rw [parts.1, parts.2.1, parts.2.2]

end ServiceIdentity

/-- The identity of the service that a request is for. -/
def Request.identity (request : Request) : ServiceIdentity :=
  ⟨request.interfaceName, request.group, request.version⟩

/-! ## Responses -/

/-- The response of a service to a request. -/
def Service.respond (service : Service) (request : Request) : Response :=
  match service.invoke request.method request.paramTypes request.parameters with
  | .ok data => .ofData request.id (some data)
  | .error fault => .ofFailure request.id fault.message

/-- The response of one of some services to a request, if there is one. -/
def Request.answerOf (request : Request) : Option Service → Response
  | some service => service.respond request
  | none => .ofFailure request.id (Fault.unpublished request.serviceKey).message

namespace Provider

/-- A request is handled by the service with its key, if there is one. -/
theorem handle_eq (provider : Provider) (request : Request) :
    provider.handle request = request.answerOf (provider.services.get? request.serviceKey) := by
  rw [handle, call, get]
  cases provider.services.get? request.serviceKey with
  | some service => rfl
  | none => rfl

/-! ## Publishing -/

/-- A service that is published, under its interface name or another one. -/
inductive Publication where
  | named (service : Service) (group version : String)
  | given (service : Service) (identity : ServiceIdentity)

namespace Publication

/-- The service that is published. -/
def service : Publication → Service
  | .named service _ _ => service
  | .given service _ => service

/-- The identity under which a service is published. -/
def identity : Publication → ServiceIdentity
  | .named service group version => identityOf service group version
  | .given _ identity => identity

/-- Publishes a service. -/
def perform (provider : Provider) : Publication → Provider
  | .named service group version => provider.publish service group version
  | .given service identity => provider.add service identity

theorem perform_eq (provider : Provider) (publication : Publication) :
    publication.perform provider = provider.add publication.service publication.identity := by
  cases publication with
  | named => rfl
  | given => rfl

/-- Whether a service is published under a key. -/
def hasKey (key : String) (publication : Publication) : Bool :=
  publication.identity.key = key

/-- Whether a service is published under an identity. -/
def isOf (identity : ServiceIdentity) (publication : Publication) : Bool :=
  publication.identity = identity

end Publication

/-- Publishes some services, one after another. -/
def run (provider : Provider) (publications : List Publication) : Provider :=
  publications.foldl Publication.perform provider

variable {provider : Provider} {key : String}

/-- A key that has a service keeps it. -/
theorem get?_perform (provider : Provider) (publication : Publication) (key : String) :
    (publication.perform provider).services.get? key
      = (provider.services.get? key).or
        (if publication.hasKey key then some publication.service else none) := by
  rw [Publication.perform_eq, add, Publication.hasKey, Dictionary.contains]
  cases taken : provider.services.get? publication.identity.key with
  | some service =>
      rw [if_pos (by rfl)]
      by_cases same : publication.identity.key = key
      · rw [← same, taken]
        rfl
      · simp [same]
  | none =>
      rw [if_neg (by simp), Dictionary.get?_insert]
      by_cases same : publication.identity.key = key
      · subst same
        simp [taken]
      · simp [same, Ne.symm same]

/-- A key has the service that was first published with it. -/
theorem get?_run (provider : Provider) (publications : List Publication) (key : String) :
    (provider.run publications).services.get? key
      = (provider.services.get? key).or
        ((publications.find? (·.hasKey key)).map Publication.service) := by
  induction publications generalizing provider with
  | nil => exact (Option.or_none ..).symm
  | cons publication rest ih =>
      show ((publication.perform provider).run rest).services.get? key = _
      rw [ih, get?_perform, Option.or_assoc, List.find?_cons]
      cases publication.hasKey key with
      | true => rfl
      | false => rfl

/-- What is published with another key, or with a key that has a service, changes no response. -/
theorem handle_perform {request : Request} {publication : Publication}
    (other : publication.identity.key ≠ request.serviceKey
      ∨ (provider.services.get? request.serviceKey).isSome = true) :
    (publication.perform provider).handle request = provider.handle request := by
  rw [handle_eq, handle_eq, get?_perform]
  rcases other with differ | taken
  · rw [Publication.hasKey, decide_eq_false differ]
    exact congrArg request.answerOf (Option.or_none ..)
  · obtain ⟨service, found⟩ := Option.isSome_iff_exists.mp taken
    rw [found]
    rfl

/-- The first service with the key of an identity is the first one under the identity, exactly if no
other identity came before with the key. -/
theorem find?_hasKey_eq_iff (publications : List Publication) (identity : ServiceIdentity) :
    publications.find? (·.hasKey identity.key) = publications.find? (·.isOf identity)
      ↔ ∀ first, publications.find? (·.hasKey identity.key) = some first →
        first.identity = identity := by
  constructor
  · intro same first found
    rw [same] at found
    exact of_decide_eq_true (List.find?_some (p := Publication.isOf identity) found)
  · intro own
    induction publications with
    | nil => rfl
    | cons publication rest ih =>
        rw [List.find?_cons, List.find?_cons]
        rw [List.find?_cons] at own
        cases keyed : publication.hasKey identity.key with
        | true =>
            rw [keyed] at own
            have same : publication.isOf identity = true := decide_eq_true (own publication rfl)
            rw [same]
        | false =>
            rw [keyed] at own
            have differ : publication.isOf identity = false := by
              refine decide_eq_false fun same => ?_
              rw [Publication.hasKey, same] at keyed
              exact of_decide_eq_false keyed rfl
            rw [differ]
            exact ih own

/-- A request is handled by the service that was first published with its key, and this is the one
first published under its identity if no service of another identity came first with the key, as is the
case where the identities resemble each other.  Nothing that is published with another key changes a
response, nor does anything published later with the same one. -/
theorem dispatches_run (publications : List Publication) (request : Request) :
    let provider := Provider.empty.run publications
    let keyed := publications.find? (·.hasKey request.serviceKey)
    let own := publications.find? (·.isOf request.identity)
    provider.handle request = request.answerOf (keyed.map Publication.service)
      ∧ (keyed = own ↔ ∀ first, keyed = some first → first.identity = request.identity)
      ∧ ((∀ publication ∈ publications, publication.identity.Resembles request.identity) →
        keyed = own)
      ∧ ∀ publication : Publication,
        publication.identity.key ≠ request.serviceKey ∨ keyed.isSome = true →
        (publication.perform provider).handle request = provider.handle request := by
  intro provider keyed own
  have found (key : String) : provider.services.get? key
      = (publications.find? (·.hasKey key)).map Publication.service := by
    rw [get?_run]
    rfl
  refine ⟨?_, find?_hasKey_eq_iff publications request.identity, ?_, ?_⟩
  · rw [handle_eq, found]
  · intro resemble
    refine (find?_hasKey_eq_iff publications request.identity).mpr fun first isFirst => ?_
    exact ServiceIdentity.eq_of_key_eq (resemble first (List.mem_of_find?_eq_some isFirst))
      (of_decide_eq_true (List.find?_some (p := Publication.hasKey request.identity.key) isFirst))
  · intro publication other
    refine handle_perform ?_
    rw [found, Option.isSome_map]
    exact other

/-- A request for a group `test` in version `11` is handled by the service of the group `test1` in
version `1`, and goes on to be when a service of its own identity is published. -/
theorem serves_other_group :
    let form : Blob.Form Unit := Blob.Scalar.unit.form
    let service : Service := .ofMethods "Hello" [("unit", .ofTotal form form id)]
    let other : Service := .ofMethods "Hello" []
    let request : Request := ⟨"1", "Hello", "unit", ["()"], [], "test", "11"⟩
    let provider := Provider.empty.publish service "test1" "1"
    request.identity ≠ identityOf service "test1" "1"
      ∧ request.identity = identityOf other "test" "11"
      ∧ provider.handle request = .ofData "1" (some [])
      ∧ (provider.publish other "test" "11").handle request = .ofData "1" (some []) := by
  refine ⟨by decide, by decide, rfl, rfl⟩

end Provider

end RemoteCall
