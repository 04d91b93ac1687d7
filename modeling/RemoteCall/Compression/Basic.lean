import RemoteCall.Fault

/-!
# Compression of bodies

The header of a frame names one of three compressions by a number. A `Compressor` packs a body and
unpacks it again, or fails.

The packed formats themselves belong to libraries: one for blocks that tell the size of their text in
front (`Blocks`), one for streams that are read piece by piece and need not tell it (`Streams`). What
is done around a library is done here: a block that announces too much is not handed to it, and a
stream is read on only while its text is within `sizeLimit`.
-/

namespace RemoteCall.Compression

/-- A way to pack bodies. -/
inductive Method where
  | none
  | lz4
  | zstd
  deriving DecidableEq, Repr

namespace Method

/-- The number of a method on the wire. -/
def code : Method → UInt8
  | none => 0
  | lz4 => 1
  | zstd => 2

/-- The method with a given number. -/
def ofCode? : UInt8 → Option Method
  | 0 => some none
  | 1 => some lz4
  | 2 => some zstd
  | _ => Option.none

/-- The name that a method is registered under. -/
def name : Method → String
  | none => "none"
  | lz4 => "lz4"
  | zstd => "zstd"

/-- The method with a given name. -/
def ofName? : String → Option Method
  | "none" => some none
  | "lz4" => some lz4
  | "zstd" => some zstd
  | _ => Option.none

@[simp] theorem ofCode?_code (method : Method) : ofCode? method.code = some method := by
  cases method <;> rfl

@[simp] theorem ofName?_name (method : Method) : ofName? method.name = some method := by
  cases method <;> rfl

end Method

/-- Packs and unpacks bodies. -/
structure Compressor where
  compress : Bytes → Except Fault Bytes
  decompress : Bytes → Except Fault Bytes

/-- The compressor that leaves bodies as they are. -/
def plain : Compressor where
  compress bytes := .ok bytes
  decompress bytes := if bytes.length ≤ sizeLimit then .ok bytes else .error .decompression

/-! ## Blocks -/

/-- A library for blocks. The first four bytes of a packed body tell the size of its text, least
significant byte first. -/
structure Blocks where
  pack : Bytes → Bytes
  unpack? : Bytes → Option Bytes

namespace Blocks

/-- Unpacks a body, unless it tells no size or one above `sizeLimit`. -/
def decompress (blocks : Blocks) (packed : Bytes) : Except Fault Bytes :=
  if packed.length < 4 then .error .decompression
  -- the library makes room for the announced size, so that one is looked at before
  else if sizeLimit < Bytes.ofLittleEndian (packed.take 4) then .error .decompression
  else
    match blocks.unpack? packed with
    | some text => .ok text
    | none => .error .decompression

/-- The compressor of a library for blocks. -/
def compressor (blocks : Blocks) : Compressor where
  compress body := .ok (blocks.pack body)
  decompress := blocks.decompress

end Blocks

/-! ## Streams -/

/-- A library for streams. -/
structure Streams where
  pack? : Bytes → Option Bytes
  /-- Where the library stands in a packed body. -/
  Reader : Type
  open? : Bytes → Option Reader
  /-- Reads a piece of at most so many bytes; an empty one stands for the end. -/
  read? : Reader → Nat → Option (Bytes × Reader)

namespace Streams

/-- How many bytes are asked for at a time. -/
def pieceSize : Nat := 8192

/-- Reads a stream to its end, where `before` bytes were read already. It fails as soon as these are
more than `sizeLimit`, whatever may follow. -/
def readOn (streams : Streams) (before : Nat) (reader : streams.Reader) : Except Fault Bytes :=
  match streams.read? reader pieceSize with
  | none => .error .decompression
  | some ([], _) => .ok []
  | some (b :: more, next) =>
    if sizeLimit < before + (more.length + 1) then .error .decompression
    else (streams.readOn (before + (more.length + 1)) next).map ((b :: more) ++ ·)
termination_by sizeLimit + 1 - before

/-- Opens a stream and reads it to its end. -/
def decompress (streams : Streams) (packed : Bytes) : Except Fault Bytes :=
  match streams.open? packed with
  | none => .error .decompression
  | some reader => streams.readOn 0 reader

/-- The compressor of a library for streams. -/
def compressor (streams : Streams) : Compressor where
  compress body :=
    match streams.pack? body with
    | some packed => .ok packed
    | none => .error .compression
  decompress := streams.decompress

end Streams

/-! ## Methods -/

/-- The libraries for the packed formats. -/
structure Libraries where
  lz4 : Blocks
  zstd : Streams

/-- The compressor of a method. -/
def Libraries.compressor (libraries : Libraries) : Method → Compressor
  | .none => plain
  | .lz4 => libraries.lz4.compressor
  | .zstd => libraries.zstd.compressor

end RemoteCall.Compression
