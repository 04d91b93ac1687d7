import RemoteCall.Blob.Parameter
import RemoteCall.Dictionary
import RemoteCall.Message

/-!
# Services

A service has an interface name and named methods. A method takes a value of one type and gives one of
another, or fails; from outside it is called with the blob of its argument and the names of the
parameter types, which have to be those of the method. So all that is kept of a method is these names
and a function of blobs.
-/

namespace RemoteCall

open Blob

/-- A function that can be called by the blob of its argument. -/
structure Method where
  /-- The names that a request has to give for the parameter types. -/
  paramTypes : List String
  /-- Calls the method with the blob of its argument. -/
  invoke : Bytes → Except Fault Bytes

namespace Method

variable {α β : Type}

/-- A method that may fail; a failure has a wording. -/
def ofFunction {ε : Type} (param : Form α) (result : Form β) (wording : ε → String)
    (run : α → Except ε β) : Method where
  paramTypes := [param.name]
  invoke parameters := do
    let argument ← param.ofBlob parameters
    match run argument with
    | .ok value => result.toBlob value
    | .error failure => .error (.invocation (wording failure))

/-- A method that does not fail. -/
def ofTotal (param : Form α) (result : Form β) (run : α → β) : Method :=
  ofFunction param result Empty.elim fun argument => .ok (run argument)

end Method

/-- Named methods under an interface. -/
structure Service where
  interfaceName : String
  methods : Dictionary Method

namespace Service

/-- A service of some methods, of which a later one replaces an earlier one of its name. -/
def ofMethods (interfaceName : String) (methods : List (String × Method)) : Service :=
  ⟨interfaceName, .ofList methods⟩

/-- Whether a service has a method of a name. -/
def hasMethod (service : Service) (name : String) : Bool :=
  service.methods.contains name

/-- Calls a method by name. -/
def invoke (service : Service) (name : String) (paramTypes : List String) (parameters : Bytes) :
    Except Fault Bytes :=
  match service.methods.get? name with
  | none => .error (.noMethod service.interfaceName name)
  | some method =>
    if method.paramTypes ≠ paramTypes then
      .error (.parameterTypes name method.paramTypes paramTypes)
    else method.invoke parameters

/-- A service in diagnostics: its interface and the names of its methods. -/
def text (service : Service) : String :=
  "RpcService \x7b interface_name: " ++ Text.quoted service.interfaceName ++ ", methods: "
    ++ Text.quotedList service.methods.keys ++ " \x7d"

end Service

end RemoteCall
