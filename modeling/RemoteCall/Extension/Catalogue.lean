import RemoteCall.Balance.Basic
import RemoteCall.Envelope.Compact
import RemoteCall.Envelope.Json
import RemoteCall.Extension.Loader
import RemoteCall.Lz4.Block
import RemoteCall.Zstd.Writer

/-!
# The catalogue of extensions

Envelope formats, compressions and balancing strategies are looked up by name. The headers of frames
give numbers instead, which stand for the names of the built-in formats and compressions.
-/

namespace RemoteCall.Extension

open Envelope Compression Balance

/-- The loaders of the three capabilities. -/
structure Catalogue where
  serializers : Loader Serializer
  compressors : Loader Compressor
  balancers : Loader Strategy

/-- The built-in serializer of a format. -/
def builtInSerializer : Format → Serializer
  | .compact => compact
  | .json => json

/-- The libraries for the packed formats that come with the project. -/
def ownLibraries : Libraries :=
  ⟨Lz4.blocks, Zstd.streams⟩

/-- The compressor of a method with these libraries. -/
def builtInCompressor (method : Compression.Method) : Compressor :=
  ownLibraries.compressor method

namespace Catalogue

/-- Nothing is registered. -/
def empty : Catalogue :=
  ⟨.empty "serializer", .empty "compressor", .empty "load_balance"⟩

/-- Registers the built-in formats, and the compressions with some libraries. -/
def addCodecsOf (libraries : Libraries) (catalogue : Catalogue) : Catalogue :=
  { catalogue with
    serializers := catalogue.serializers.registerAll
      ([.compact, .json].map fun format => (format.name, builtInSerializer format))
    compressors := catalogue.compressors.registerAll
      ([.none, .lz4, .zstd].map fun method => (method.name, libraries.compressor method)) }

/-- Registers the built-in formats and compressions. -/
def addCodecs (catalogue : Catalogue) : Catalogue :=
  catalogue.addCodecsOf ownLibraries

/-- Registers the built-in strategies. -/
def addBalancers (catalogue : Catalogue) : Catalogue :=
  { catalogue with
    balancers := catalogue.balancers.registerAll (Strategy.all.map fun s => (s.name, s)) }

/-- The built-in formats and compressions. -/
def codecs : Catalogue := empty.addCodecs

/-- All built-in extensions. -/
def standard : Catalogue := codecs.addBalancers

/-- The name of the format with a number. -/
def formatName (code : UInt8) : Except Fault String :=
  match Format.ofCode? code with
  | some format => .ok format.name
  | none => .error (.unknownFormat code)

/-- The name of the compression with a number. -/
def compressionName (code : UInt8) : Except Fault String :=
  match Compression.Method.ofCode? code with
  | some method => .ok method.name
  | none => .error (.unknownCompression code)

/-- The instance of the serializer with a name. -/
def findSerializer (catalogue : Catalogue) (name : String) :
    Except Fault (Instance Serializer) × Catalogue :=
  let (found, serializers) := catalogue.serializers.get name
  (found, { catalogue with serializers := serializers })

/-- The instance of the compressor with a name. -/
def findCompressor (catalogue : Catalogue) (name : String) :
    Except Fault (Instance Compressor) × Catalogue :=
  let (found, compressors) := catalogue.compressors.get name
  (found, { catalogue with compressors := compressors })

/-- The serializer with a number. -/
def serializer (catalogue : Catalogue) (code : UInt8) : Except Fault Serializer := do
  catalogue.serializers.value (← formatName code)

/-- The compressor with a number. -/
def compressor (catalogue : Catalogue) (code : UInt8) : Except Fault Compressor := do
  catalogue.compressors.value (← compressionName code)

end Catalogue

end RemoteCall.Extension
