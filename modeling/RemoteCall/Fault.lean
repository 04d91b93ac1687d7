import RemoteCall.Bytes
import RemoteCall.Net.SocketAddress
import RemoteCall.Text.Quoted

/-!
# Causes of failure

Every operation that can fail gives one `Fault`, and `Fault.message` is its wording. A fault is a
protocol violation (`isViolation`) when the bytes of a connection can no longer be trusted, so that
reading has to stop there.
-/

namespace RemoteCall

/-- Why an operation failed. -/
inductive Fault where
  /-- The operating system refused an input or output operation. -/
  | io (detail : String)
  /-- A frame does not start with the mark of this protocol. -/
  | badMagic (received : Bytes)
  /-- A frame has another version of the protocol. -/
  | badVersion (version : UInt8)
  /-- A frame is longer than allowed. -/
  | frameTooLong (length : Nat)
  /-- A frame announces less than its header. -/
  | frameTooShort (length : Nat)
  /-- A frame has a type that the protocol does not know. -/
  | unknownKind (code : UInt8)
  /-- No envelope format has this number. -/
  | unknownFormat (code : UInt8)
  /-- No compression has this number. -/
  | unknownCompression (code : UInt8)
  /-- A request or a response came without a body. -/
  | missingBody
  /-- A value has no written form. -/
  | unwritable (reason : String)
  /-- Bytes spell no value of the expected type. -/
  | unreadable (reason : String)
  /-- A body could not be compressed. -/
  | compression
  /-- A body could not be decompressed within the size limit. -/
  | decompression
  /-- No service is published under the key. -/
  | unpublished (key : String)
  /-- The directory lists no address for the key. -/
  | noProvider (key : String)
  /-- The service has no such method. -/
  | noMethod (service method : String)
  /-- The request names other parameter types than the method takes. -/
  | parameterTypes (method : String) (expected actual : List String)
  /-- The method itself failed. -/
  | invocation (reason : String)
  /-- The response belongs to another request. -/
  | foreignResponse (expected actual : String)
  /-- The provider answered that the call failed. -/
  | callFailed (service requestId message : String)
  /-- No call with this id is pending. -/
  | notPending (requestId : String)
  /-- No connection was made in time. -/
  | connectTimeout (address : SocketAddress)
  /-- The channel no longer carries messages. -/
  | inactive (address : SocketAddress)
  /-- The connection ended before the answer came. -/
  | connectionClosed
  /-- Some other failure of the transport. -/
  | transport (reason : String)
  /-- No answer came in time. -/
  | timeout (requestId : String)
  /-- The directory's store refused an operation. -/
  | directory (reason : String)
  /-- Nothing is registered under this name. -/
  | noExtension (capability name : String)
  /-- A text is no socket address. -/
  | badAddress (text : String)
  /-- A setting is wrong. -/
  | settings (reason : String)
  deriving DecidableEq, Repr

namespace Fault

/-- The wording of a fault. -/
def message : Fault → String
  | io detail => "I/O error: " ++ detail
  | badMagic received => "Unknown magic code: " ++ Text.byteList received
  | badVersion version => "Version isn't compatible: " ++ toString version.toNat
  | frameTooLong length => "Frame too large: " ++ toString length ++ " bytes"
  | frameTooShort length => "Frame length " ++ toString length ++ " is shorter than the header"
  | unknownKind code => "Unknown message type: " ++ toString code.toNat
  | unknownFormat code => "Unknown codec id: " ++ toString code.toNat
  | unknownCompression code => "Unknown compression id: " ++ toString code.toNat
  | missingBody => "Frame body is required for this message type"
  | unwritable reason => "Serialize error: " ++ reason
  | unreadable reason => "Deserialize error: " ++ reason
  | compression => "Compression failed"
  | decompression => "Decompression failed"
  | unpublished key => "Service not found: " ++ key
  | noProvider key => "No provider available for service: " ++ key
  | noMethod service method => "Method not found: " ++ service ++ "." ++ method
  | parameterTypes method expected actual =>
    "Parameter mismatch for " ++ method ++ ": expected " ++ Text.quotedList expected ++ ", got "
      ++ Text.quotedList actual
  | invocation reason => "Invocation failed: " ++ reason
  | foreignResponse expected actual =>
    "Response does not match request: expected " ++ expected ++ ", got " ++ actual
  | callFailed service requestId message =>
    "Call failed for " ++ service ++ " (request " ++ requestId ++ "): " ++ message
  | notPending requestId => "Unknown or already completed request: " ++ requestId
  | connectTimeout address => "Connect to " ++ address.text ++ " timed out"
  | inactive address => "Channel to " ++ address.text ++ " is not active"
  | connectionClosed => "Connection closed"
  | transport reason => "Transport error: " ++ reason
  | timeout requestId => "Request " ++ requestId ++ " timed out"
  | directory reason => "Registry error: " ++ reason
  | noExtension capability name => "No such extension of " ++ capability ++ ": " ++ name
  | badAddress text => "Invalid address: " ++ text
  | settings reason => "Configuration error: " ++ reason

/-- Whether the bytes that follow on the connection can no longer be trusted. -/
def isViolation : Fault → Bool
  | badMagic _ | badVersion _ | frameTooLong _ | frameTooShort _ | unknownKind _ => true
  | _ => false

end Fault

end RemoteCall
