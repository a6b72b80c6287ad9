import LedgerExec.Bytes
set_option autoImplicit false

/-!
# The BLAKE3 digest

A message is cut into chunks of 1024 bytes and every chunk into blocks of 64.
Blocks of a chunk are chained through the compression function; the chaining
values of the chunks are then joined two by two, a lone last one moving up
unchanged, until one is left.  The last compression carries the root flag and
its first 32 bytes are the digest.

The state of the compression is kept as four rows of four words, so that one
half of a round is a single step on whole rows.
-/

namespace LedgerExec.Blake3

/-! ## Rows and blocks -/

/-- Four 32-bit words. -/
structure Row where
  a : UInt32
  b : UInt32
  c : UInt32
  d : UInt32
  deriving DecidableEq, Repr, Inhabited

namespace Row

/-- A word operation on each of the four places. -/
@[inline] def zipWith (f : UInt32 → UInt32 → UInt32) (x y : Row) : Row :=
  ⟨f x.a y.a, f x.b y.b, f x.c y.c, f x.d y.d⟩

/-- Word-wise sum. -/
@[inline] def add (x y : Row) : Row := zipWith (· + ·) x y

/-- Word-wise exclusive or, each result turned right by `count` bits. -/
@[inline] def xorTurn (count : UInt32) (x y : Row) : Row :=
  zipWith (fun p q => let w := p ^^^ q; (w >>> count) ||| (w <<< (32 - count))) x y

/-- Word-wise exclusive or. -/
@[inline] def xor (x y : Row) : Row := zipWith (· ^^^ ·) x y

/-- The words moved left by one place. -/
@[inline] def left1 (x : Row) : Row := ⟨x.b, x.c, x.d, x.a⟩

/-- The words moved left by two places. -/
@[inline] def left2 (x : Row) : Row := ⟨x.c, x.d, x.a, x.b⟩

/-- The words moved left by three places. -/
@[inline] def left3 (x : Row) : Row := ⟨x.d, x.a, x.b, x.c⟩

/-- The sixteen bytes of a row. -/
def toBytes (x : Row) : Bytes :=
  [x.a, x.b, x.c, x.d].flatMap fun word => Bytes.littleEndian 4 word.toNat

end Row

/-- A chaining value: eight words. -/
structure Chain where
  low : Row
  high : Row
  deriving DecidableEq, Repr, Inhabited

/-- The 32 bytes of a chaining value. -/
def Chain.toBytes (chain : Chain) : Bytes := chain.low.toBytes ++ chain.high.toBytes

/-- A message block: sixteen words in four rows. -/
structure Block where
  r0 : Row
  r1 : Row
  r2 : Row
  r3 : Row
  deriving DecidableEq, Repr, Inhabited

/-- The word at a place of a byte string, zero bytes standing in for missing ones. -/
def wordAt (bytes : Bytes) (index : Nat) : UInt32 :=
  UInt32.ofNat (Bytes.ofLittleEndian ((bytes.drop (4 * index)).take 4))

/-- The row that starts at a word of a byte string. -/
def rowAt (bytes : Bytes) (index : Nat) : Row :=
  ⟨wordAt bytes index, wordAt bytes (index + 1), wordAt bytes (index + 2), wordAt bytes (index + 3)⟩

/-- The block spelled by up to 64 bytes. -/
def Block.ofBytes (bytes : Bytes) : Block :=
  ⟨rowAt bytes 0, rowAt bytes 4, rowAt bytes 8, rowAt bytes 12⟩

/-- The block whose halves are two chaining values. -/
def Block.ofChains (left right : Chain) : Block := ⟨left.low, left.high, right.low, right.high⟩

/-- The order in which the next round takes the words. -/
def Block.permute (m : Block) : Block :=
  ⟨⟨m.r0.c, m.r1.c, m.r0.d, m.r2.c⟩, ⟨m.r1.d, m.r0.a, m.r1.a, m.r3.b⟩,
   ⟨m.r0.b, m.r2.d, m.r3.a, m.r1.b⟩, ⟨m.r2.b, m.r3.c, m.r3.d, m.r2.a⟩⟩

/-! ## Compression -/

/-- The four rows that a round works on. -/
structure State where
  s0 : Row
  s1 : Row
  s2 : Row
  s3 : Row
  deriving DecidableEq, Repr, Inhabited

/-- Mixes the four columns with the even words `x` and the odd words `y`. -/
def State.mix (s : State) (x y : Row) : State :=
  let p0 := (s.s0.add s.s1).add x
  let p3 := Row.xorTurn 16 s.s3 p0
  let p2 := s.s2.add p3
  let p1 := Row.xorTurn 12 s.s1 p2
  let q0 := (p0.add p1).add y
  let q3 := Row.xorTurn 8 p3 q0
  let q2 := p2.add q3
  let q1 := Row.xorTurn 7 p1 q2
  ⟨q0, q1, q2, q3⟩

/-- One round: the columns, then the diagonals. -/
def State.round (s : State) (m : Block) : State :=
  let c := s.mix ⟨m.r0.a, m.r0.c, m.r1.a, m.r1.c⟩ ⟨m.r0.b, m.r0.d, m.r1.b, m.r1.d⟩
  let d := State.mix ⟨c.s0, c.s1.left1, c.s2.left2, c.s3.left3⟩
    ⟨m.r2.a, m.r2.c, m.r3.a, m.r3.c⟩ ⟨m.r2.b, m.r2.d, m.r3.b, m.r3.d⟩
  ⟨d.s0, d.s1.left3, d.s2.left2, d.s3.left1⟩

/-- A number of rounds, the block permuted between them. -/
def State.rounds : Nat → State → Block → State
  | 0, s, _ => s
  | count + 1, s, m => State.rounds count (s.round m) m.permute

/-- The initial chaining value. -/
def initial : Chain :=
  ⟨⟨0x6A09E667, 0xBB67AE85, 0x3C6EF372, 0xA54FF53A⟩,
   ⟨0x510E527F, 0x9B05688C, 0x1F83D9AB, 0x5BE0CD19⟩⟩

/-- The flag of the first block of a chunk. -/
def chunkStart : UInt32 := 1

/-- The flag of the last block of a chunk. -/
def chunkEnd : UInt32 := 2

/-- The flag of a join of two chaining values. -/
def parentFlag : UInt32 := 4

/-- The flag of the last compression. -/
def rootFlag : UInt32 := 8

/-- The compression function, cut to its first eight words. -/
def compress (chain : Chain) (block : Block) (counter : Nat) (length flags : UInt32) : Chain :=
  let start : State :=
    ⟨chain.low, chain.high, initial.low,
     ⟨UInt32.ofNat counter, UInt32.ofNat (counter >>> 32), length, flags⟩⟩
  let final := State.rounds 7 start block
  ⟨final.s0.xor final.s2, final.s1.xor final.s3⟩

/-! ## Chunks and the tree over them -/

/-- Cuts a list into pieces of `size`, the last one shorter, in at most `fuel` pieces. -/
def pieces {α : Type} (size : Nat) : Nat → List α → List (List α)
  | 0, _ => []
  | _, [] => []
  | fuel + 1, xs => xs.take size :: pieces size fuel (xs.drop size)

/-- Chains the blocks of a chunk.  `flags` is added to the last block only. -/
def chainBlocks (counter : Nat) (flags : UInt32) : UInt32 → Chain → List Bytes → Chain
  | start, chain, [] => compress chain (Block.ofBytes []) counter 0 (start ||| chunkEnd ||| flags)
  | start, chain, [last] =>
    compress chain (Block.ofBytes last) counter (UInt32.ofNat last.length)
      (start ||| chunkEnd ||| flags)
  | start, chain, block :: rest =>
    chainBlocks counter flags 0 (compress chain (Block.ofBytes block) counter 64 start) rest

/-- The chaining value of a chunk. -/
def chunk (counter : Nat) (flags : UInt32) (bytes : Bytes) : Chain :=
  chainBlocks counter flags chunkStart initial (pieces 64 17 bytes)

/-- The chaining value above two others. -/
def parent (flags : UInt32) (left right : Chain) : Chain :=
  compress initial (Block.ofChains left right) 0 64 (parentFlag ||| flags)

/-- Joins neighbours; a lone last value moves up unchanged. -/
def joinLevel : List Chain → List Chain
  | left :: right :: rest => parent 0 left right :: joinLevel rest
  | lone => lone

/-- The root above a level of at least two values, in at most `fuel` further levels. -/
def root : Nat → List Chain → Chain
  | _, [left, right] => parent rootFlag left right
  | fuel + 1, level => root fuel (joinLevel level)
  | 0, _ => initial

/-- The digest of a message: 32 bytes. -/
def digest (message : Bytes) : Bytes :=
  match pieces 1024 (message.length / 1024 + 1) message with
  | [] => (chunk 0 rootFlag []).toBytes
  | [only] => (chunk 0 rootFlag only).toBytes
  | chunks => (root chunks.length (chunks.mapIdx fun index bytes => chunk index 0 bytes)).toBytes

theorem length_toBytes (chain : Chain) : chain.toBytes.length = 32 := by
  simp [Chain.toBytes, Row.toBytes]

/-- A digest has 32 bytes. -/
@[simp] theorem length_digest (message : Bytes) : (digest message).length = 32 := by
  unfold digest
  split <;> exact length_toBytes _

end LedgerExec.Blake3
