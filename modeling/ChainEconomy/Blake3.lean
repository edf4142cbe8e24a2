import ChainEconomy.Text.Hex

/-! # BLAKE3

The unkeyed hash with 256 bits of output. The input is cut into chunks of 1024 bytes and each chunk
into blocks of 64 bytes. Every chunk gives a node, nodes are joined in pairs, level by level, until
one is left, and that one is compressed as the root. A node holds the inputs of its last
compression, so that only the root's compression is told apart by a flag. -/

namespace ChainEconomy.Blake3

/-- Four words of the state. -/
structure Row where
  a : UInt32
  b : UInt32
  c : UInt32
  d : UInt32
  deriving DecidableEq, Repr

namespace Row

/-- A word operation on two rows. -/
def zip (f : UInt32 → UInt32 → UInt32) (x y : Row) : Row :=
  ⟨f x.a y.a, f x.b y.b, f x.c y.c, f x.d y.d⟩

/-- Every word rotated to the right. -/
def rotateWords (n : UInt32) (x : Row) : Row :=
  let r := fun w : UInt32 => (w >>> n) ||| (w <<< (32 - n))
  ⟨r x.a, r x.b, r x.c, r x.d⟩

/-- The row one place to the left. -/
def shift (x : Row) : Row := ⟨x.b, x.c, x.d, x.a⟩

/-- The words of a row. -/
def words (x : Row) : List UInt32 := [x.a, x.b, x.c, x.d]

/-- The row of four words of a list. -/
def ofWords (ws : List UInt32) (i j k l : Nat) : Row :=
  ⟨ws.getD i 0, ws.getD j 0, ws.getD k 0, ws.getD l 0⟩

end Row

/-- Two rows: a chaining value. -/
structure Chain where
  low : Row
  high : Row
  deriving DecidableEq, Repr

/-- The words of a chaining value. -/
def Chain.words (c : Chain) : List UInt32 := c.low.words ++ c.high.words

/-- The initial chaining value. -/
def initial : Chain :=
  ⟨⟨0x6A09E667, 0xBB67AE85, 0x3C6EF372, 0xA54FF53A⟩,
    ⟨0x510E527F, 0x9B05688C, 0x1F83D9AB, 0x5BE0CD19⟩⟩

/-- The flag of the first block of a chunk. -/
def chunkStart : UInt32 := 1

/-- The flag of the last block of a chunk. -/
def chunkEnd : UInt32 := 2

/-- The flag of a node above two others. -/
def parent : UInt32 := 4

/-- The flag of the topmost node. -/
def root : UInt32 := 8

/-! ## Compression -/

/-- The state of a compression. -/
structure State where
  w : Row
  x : Row
  y : Row
  z : Row

/-- Mixes two rows of message words into the four columns. -/
def mixColumns (s : State) (m n : Row) : State :=
  let w := Row.zip (· + ·) (Row.zip (· + ·) s.w s.x) m
  let z := (Row.zip (· ^^^ ·) s.z w).rotateWords 16
  let y := Row.zip (· + ·) s.y z
  let x := (Row.zip (· ^^^ ·) s.x y).rotateWords 12
  let w := Row.zip (· + ·) (Row.zip (· + ·) w x) n
  let z := (Row.zip (· ^^^ ·) z w).rotateWords 8
  let y := Row.zip (· + ·) y z
  let x := (Row.zip (· ^^^ ·) x y).rotateWords 7
  ⟨w, x, y, z⟩

/-- Mixes message words into the diagonals, which are columns once the rows are shifted. -/
def mixDiagonals (s : State) (m n : Row) : State :=
  let t := mixColumns ⟨s.w, s.x.shift, s.y.shift.shift, s.z.shift.shift.shift⟩ m n
  ⟨t.w, t.x.shift.shift.shift, t.y.shift.shift, t.z.shift⟩

/-- The order in which a round takes the message words of the round before. -/
def permutation : List Nat := [2, 6, 3, 10, 7, 0, 4, 13, 1, 11, 12, 5, 9, 14, 15, 8]

/-- The message words for the next round. -/
def permute (block : List UInt32) : List UInt32 := permutation.map fun i => block.getD i 0

/-- A number of rounds. -/
def rounds : Nat → State → List UInt32 → State
  | 0, s, _ => s
  | n + 1, s, block =>
    let s := mixColumns s (.ofWords block 0 2 4 6) (.ofWords block 1 3 5 7)
    let s := mixDiagonals s (.ofWords block 8 10 12 14) (.ofWords block 9 11 13 15)
    rounds n s (permute block)

/-- The inputs of a compression: chaining value, message words, position of the chunk, number of
bytes in the block, and flags. -/
structure Node where
  chain : Chain
  block : List UInt32
  counter : Nat
  length : Nat
  flags : UInt32

/-- The chaining value that a compression gives. -/
def Node.compress (n : Node) : Chain :=
  let last : Row :=
    ⟨UInt32.ofNat n.counter, UInt32.ofNat (n.counter / Nat.pow 2 32), UInt32.ofNat n.length,
      n.flags⟩
  let s := rounds 7 ⟨n.chain.low, n.chain.high, initial.low, last⟩ n.block
  ⟨Row.zip (· ^^^ ·) s.w s.y, Row.zip (· ^^^ ·) s.x s.z⟩

/-! ## Chunks and the tree -/

/-- Words of four bytes, the low byte first; bytes that are missing at the end count as zero. -/
def wordsOfBytes : Nat → Bytes → List UInt32
  | 0, _ => []
  | n + 1, bytes =>
    let byte (i : Nat) : UInt32 := (bytes.getD i 0).toUInt32
    (byte 0 ||| (byte 1 <<< 8) ||| (byte 2 <<< 16) ||| (byte 3 <<< 24)) ::
      wordsOfBytes n (bytes.drop 4)

/-- The bytes of a word, the low byte first. -/
def bytesOfWord (w : UInt32) : Bytes :=
  [w.toUInt8, (w >>> 8).toUInt8, (w >>> 16).toUInt8, (w >>> 24).toUInt8]

/-- The node of a chunk's block, given the blocks after it. -/
def chunkNode (counter : Nat) (chain : Chain) (flags : UInt32) : Bytes → List Bytes → Node
  | block, [] => ⟨chain, wordsOfBytes 16 block, counter, block.length, flags ||| chunkEnd⟩
  | block, next :: rest =>
    let node : Node := ⟨chain, wordsOfBytes 16 block, counter, block.length, flags⟩
    chunkNode counter node.compress 0 next rest

/-- A list cut into parts of a given size, the last one perhaps shorter. -/
def cut (size : Nat) : Nat → Bytes → List Bytes
  | 0, _ => []
  | parts + 1, bytes =>
    if bytes.isEmpty then [] else bytes.take size :: cut size parts (bytes.drop size)

/-- The node of a chunk at a position. -/
def leaf (counter : Nat) (chunk : Bytes) : Node :=
  match cut 64 16 chunk with
  | [] => chunkNode counter initial chunkStart [] []
  | block :: rest => chunkNode counter initial chunkStart block rest

/-- The nodes of the chunks from a position on. -/
def leaves (counter : Nat) : List Bytes → List Node
  | [] => []
  | chunk :: rest => leaf counter chunk :: leaves (counter + 1) rest

/-- The node above two nodes. -/
def join (left right : Node) : Node :=
  ⟨initial, left.compress.words ++ right.compress.words, 0, 64, parent⟩

/-- Joins neighbours; a node without a neighbour moves up as it is. -/
def joinPairs : List Node → List Node
  | left :: right :: rest => join left right :: joinPairs rest
  | rest => rest

/-- The node on top after a number of levels. -/
def top : Nat → List Node → Node
  | 0, nodes => nodes.headD (leaf 0 [])
  | levels + 1, nodes =>
    match nodes with
    | [] => leaf 0 []
    | [node] => node
    | nodes => top levels (joinPairs nodes)

/-- The hash of a string of bytes. -/
def hash (input : Bytes) : Bytes :=
  let chunks := cut 1024 (input.length / 1024 + 1) input
  let node := top input.length (leaves 0 chunks)
  { node with flags := node.flags ||| root }.compress.words.flatMap bytesOfWord

/-- A hash is 32 bytes long. -/
@[simp] theorem length_hash (input : Bytes) : (hash input).length = 32 := by
  simp [hash, Chain.words, Row.words, bytesOfWord]

end ChainEconomy.Blake3
