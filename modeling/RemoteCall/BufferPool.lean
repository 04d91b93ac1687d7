import RemoteCall.Dictionary
import RemoteCall.Bytes

/-!
# Pooled buffers

Writing a frame needs a place for the body before its length is known. A pool lends such buffers: one
that is handed out is empty, and one that comes back is emptied and kept, unless it grew too large or
enough idle ones are there.

`Lending` is a pool together with the buffers that are out, each under the name of its borrower.
-/

namespace RemoteCall

/-! ## Buffers -/

/-- Bytes, and how many fit before the buffer has to grow. -/
structure Buffer where
  bytes : Bytes
  capacity : Nat
  deriving DecidableEq, Repr

namespace Buffer

/-- The capacity of a new buffer. -/
def freshCapacity : Nat := 1024

/-- A new buffer. -/
def fresh : Buffer := ⟨[], freshCapacity⟩

/-- The capacity after making room for a number of bytes: it at least doubles when it grows. -/
def grow (capacity needed : Nat) : Nat :=
  if needed ≤ capacity then capacity else max (2 * capacity) needed

/-- The buffer with other bytes in it. -/
def fill (buffer : Buffer) (bytes : Bytes) : Buffer :=
  ⟨bytes, grow buffer.capacity bytes.length⟩

/-- The buffer with more bytes at its end. -/
def write (buffer : Buffer) (bytes : Bytes) : Buffer :=
  buffer.fill (buffer.bytes ++ bytes)

/-- The buffer without its bytes; it keeps its capacity. -/
def clear (buffer : Buffer) : Buffer :=
  ⟨[], buffer.capacity⟩

/-- The bytes of a buffer, and the buffer without them. -/
def take (buffer : Buffer) : Bytes × Buffer :=
  (buffer.bytes, buffer.clear)

end Buffer

/-! ## Pools -/

/-- Idle buffers, the next one to be handed out first. -/
structure BufferPool where
  idle : List Buffer
  deriving DecidableEq, Repr

namespace BufferPool

/-- Buffers of a larger capacity are not kept. -/
def keptCapacity : Nat := 65536

/-- No buffer is kept when so many are idle. -/
def maxIdle : Nat := 256

/-- A pool of new buffers. -/
def ofSize (size : Nat) : BufferPool :=
  ⟨List.replicate size Buffer.fresh⟩

/-- The pool of a codec. -/
def standard : BufferPool := ofSize 16

/-- How many buffers are idle. -/
def available (pool : BufferPool) : Nat :=
  pool.idle.length

/-- Takes an idle buffer out of the pool, or a new one where none is idle. -/
def acquire (pool : BufferPool) : Buffer × BufferPool :=
  match pool.idle with
  | [] => (Buffer.fresh, pool)
  | buffer :: rest => (buffer, ⟨rest⟩)

/-- Whether a buffer that comes back is kept. -/
def keeps (pool : BufferPool) (buffer : Buffer) : Bool :=
  buffer.capacity ≤ keptCapacity && pool.available < maxIdle

/-- The pool after a buffer came back. -/
def release (pool : BufferPool) (buffer : Buffer) : BufferPool :=
  if pool.keeps buffer then ⟨buffer.clear :: pool.idle⟩ else pool

end BufferPool

/-! ## Lending -/

/-- A pool and the buffers that are out. -/
structure Lending where
  pool : BufferPool
  held : Dictionary Buffer

namespace Lending

/-- Nothing is out yet. -/
def ofPool (pool : BufferPool) : Lending :=
  ⟨pool, .empty⟩

/-- Takes back the buffer of a borrower, who may have none. -/
def drop (lending : Lending) (borrower : String) : Lending :=
  match lending.held.get? borrower with
  | some buffer => ⟨lending.pool.release buffer, lending.held.erase borrower⟩
  | none => lending

/-- Hands out a buffer; one that the borrower still has comes back after that. -/
def acquire (lending : Lending) (borrower : String) : Lending :=
  let (buffer, pool) := lending.pool.acquire
  let returned := drop { lending with pool := pool } borrower
  { returned with held := returned.held.insert borrower buffer }

/-- Writes into the buffer of a borrower. -/
def write (lending : Lending) (borrower : String) (bytes : Bytes) : Lending :=
  match lending.held.get? borrower with
  | some buffer => { lending with held := lending.held.insert borrower (buffer.write bytes) }
  | none => lending

/-- Takes the bytes out of the buffer of a borrower. -/
def take (lending : Lending) (borrower : String) : Option Bytes × Lending :=
  match lending.held.get? borrower with
  | some buffer =>
    let (bytes, buffer) := buffer.take
    (some bytes, { lending with held := lending.held.insert borrower buffer })
  | none => (none, lending)

/-- Takes back all buffers. -/
def dropAll (lending : Lending) : Lending :=
  lending.held.keys.foldl drop lending

end Lending

end RemoteCall
