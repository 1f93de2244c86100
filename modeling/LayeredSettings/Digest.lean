/-
The BLAKE3 digest of a byte sequence, 256 bits in hexadecimal.

The input is cut into chunks of 1024 bytes and each chunk into blocks of 64. The
blocks of a chunk are compressed one after the other into a chaining value; the
chaining values of the chunks are joined pairwise in a binary tree whose left
subtrees are complete. The last compression, at the root, is marked as such.
-/

namespace LayeredSettings.Digest

/-- The initial chaining value. -/
def initial : List UInt32 :=
  [0x6A09E667, 0xBB67AE85, 0x3C6EF372, 0xA54FF53A, 0x510E527F, 0x9B05688C, 0x1F83D9AB, 0x5BE0CD19]

/-- The order of the message words of a round, in terms of the round before. -/
def schedule : List Nat := [2, 6, 3, 10, 7, 0, 4, 13, 1, 11, 12, 5, 9, 14, 15, 8]

/-- Marks of a compression: first and last block of a chunk, inner node, root. -/
def chunkStart : UInt32 := 1

@[inherit_doc chunkStart] def chunkEnd : UInt32 := 2

@[inherit_doc chunkStart] def innerNode : UInt32 := 4

@[inherit_doc chunkStart] def rootNode : UInt32 := 8

/-- Rotation to the right by `n` bits, `0 < n < 32`. -/
def rotate (x n : UInt32) : UInt32 := (x >>> n) ||| (x <<< (32 - n))

/-- Mixes two message words into a column or diagonal of the state. -/
def mix (v : Array UInt32) (a b c d : Nat) (x y : UInt32) : Array UInt32 :=
  let va := v.getD a 0 + v.getD b 0 + x
  let vd := rotate (v.getD d 0 ^^^ va) 16
  let vc := v.getD c 0 + vd
  let vb := rotate (v.getD b 0 ^^^ vc) 12
  let va := va + vb + y
  let vd := rotate (vd ^^^ va) 8
  let vc := vc + vd
  let vb := rotate (vb ^^^ vc) 7
  (((v.setIfInBounds a va).setIfInBounds b vb).setIfInBounds c vc).setIfInBounds d vd

/-- The places that a round mixes: the four columns, then the four diagonals. -/
def places : List (Nat × Nat × Nat × Nat) :=
  [(0, 4, 8, 12), (1, 5, 9, 13), (2, 6, 10, 14), (3, 7, 11, 15),
   (0, 5, 10, 15), (1, 6, 11, 12), (2, 7, 8, 13), (3, 4, 9, 14)]

/-- One round with sixteen message words. -/
def round (v message : Array UInt32) : Array UInt32 :=
  places.zipIdx.foldl (fun v ((a, b, c, d), i) =>
    mix v a b c d (message.getD (2 * i) 0) (message.getD (2 * i + 1) 0)) v

/-- The message words of the next round. -/
def reorder (message : Array UInt32) : Array UInt32 :=
  (schedule.map fun i => message.getD i 0).toArray

/-- `n` rounds, the message words reordered after each. -/
def rounds : Nat → Array UInt32 → Array UInt32 → Array UInt32
  | 0, v, _ => v
  | n + 1, v, message => rounds n (round v message) (reorder message)

/-- All that goes into one compression. -/
structure Block where
  chain : List UInt32
  words : List UInt32
  counter : Nat
  size : Nat
  marks : UInt32

/-- The chaining value after a compression. -/
def Block.compress (b : Block) : List UInt32 :=
  let tail := [UInt32.ofNat b.counter, UInt32.ofNat (b.counter / 0x100000000), UInt32.ofNat b.size,
    b.marks]
  let start := (b.chain ++ initial.take 4 ++ tail).toArray
  let v := (rounds 7 start b.words.toArray).toList
  (v.take 8).zipWith (· ^^^ ·) (v.drop 8)

/-- The list in pieces of `n` elements (`0 < n`); one empty piece if it is empty. -/
def pieces {α : Type} (n : Nat) (xs : List α) : List (List α) :=
  (List.range (max 1 ((xs.length + n - 1) / n))).map fun i => (xs.drop (i * n)).take n

/-- Four bytes, the lowest first, as a word. -/
def word : List UInt8 → UInt32
  | [] => 0
  | b :: rest => b.toUInt32 ||| (word rest <<< 8)

/-- Up to 64 bytes as sixteen words, filled up with zeros. -/
def blockWords (bytes : List UInt8) : List UInt32 :=
  (pieces 4 (bytes ++ List.replicate (64 - bytes.length) 0)).map word

/-- The blocks of a chunk but the last are compressed; the last is left over. -/
def chunkBlock (counter : Nat) : List UInt32 → UInt32 → List (List UInt8) → Block
  | chain, marks, [] => ⟨chain, blockWords [], counter, 0, marks ||| chunkEnd⟩
  | chain, marks, [last] => ⟨chain, blockWords last, counter, last.length, marks ||| chunkEnd⟩
  | chain, marks, block :: rest =>
    chunkBlock counter (Block.compress ⟨chain, blockWords block, counter, 64, marks⟩) 0 rest

/-- The greatest power of two below `n`, for `2 ≤ n`: the size of the left subtree. -/
def leftSize (n : Nat) : Nat := Nat.pow 2 (n - 1).log2

/-- The last block of the tree over consecutive chunks, numbered from `first`. -/
def tree : Nat → Nat → List (List UInt8) → Block
  | 0, first, chunks => chunkBlock first initial chunkStart (pieces 64 chunks.flatten)
  | depth + 1, first, chunks =>
    if chunks.length ≤ 1 then chunkBlock first initial chunkStart (pieces 64 chunks.flatten)
    else
      let n := leftSize chunks.length
      let left := tree depth first (chunks.take n)
      let right := tree depth (first + n) (chunks.drop n)
      ⟨initial, left.compress ++ right.compress, 0, 64, innerNode⟩

/-- Two hexadecimal digits for each byte of a word, the lowest byte first. -/
def wordHex (w : UInt32) : List Char :=
  (List.range 4).flatMap fun i =>
    let byte := (w.toNat / Nat.pow 256 i) % 256
    [Nat.digitChar (byte / 16), Nat.digitChar (byte % 16)]

/-- The digest of a byte sequence in hexadecimal. -/
def hex (bytes : List UInt8) : String :=
  let chunks := pieces 1024 bytes
  let top := tree chunks.length 0 chunks
  String.ofList ((Block.compress { top with marks := top.marks ||| rootNode }).flatMap wordHex)

/-- The digest of a text in its UTF-8 form. -/
def ofText (s : String) : String := hex s.toUTF8.toList

end LayeredSettings.Digest
