import CodeGraph.Bytes

/-!
# The BLAKE3 digest

The plain hash of BLAKE3: the input is cut into chunks of 1024 octets, each chunk is
compressed block by block into a chaining value, and chaining values are joined pairwise
in the left-complete binary tree whose root gives the digest.
-/

namespace CodeGraph.Blake3

/-- Eight words passed from one compression to the next. -/
abbrev ChainingValue := Vector UInt32 8

/-- The initial words. -/
def iv : ChainingValue :=
  #v[0x6A09E667, 0xBB67AE85, 0x3C6EF372, 0xA54FF53A, 0x510E527F, 0x9B05688C, 0x1F83D9AB,
    0x5BE0CD19]

/-- Which word of the previous round's message each word of a round is. -/
def permutation : Vector (Fin 16) 16 :=
  #v[2, 6, 3, 10, 7, 0, 4, 13, 1, 11, 12, 5, 9, 14, 15, 8]

/-- The octets of a block and of a chunk. -/
def blockLength : Nat := 64

@[inherit_doc blockLength]
def chunkLength : Nat := 1024

/-- Domain flags. -/
def chunkStart : UInt32 := 1

@[inherit_doc chunkStart]
def chunkEnd : UInt32 := 2

@[inherit_doc chunkStart]
def parent : UInt32 := 4

@[inherit_doc chunkStart]
def root : UInt32 := 8

/-- A word rotated to the right. -/
def rotateRight (x : UInt32) (n : UInt32) : UInt32 :=
  (x >>> n) ||| (x <<< (32 - n))

/-- The quarter round on four words of the state with two words of the message. -/
def mix (s : Vector UInt32 16) (a b c d : Fin 16) (x y : UInt32) : Vector UInt32 16 :=
  let a₁ := s[a] + s[b] + x
  let d₁ := rotateRight (s[d] ^^^ a₁) 16
  let c₁ := s[c] + d₁
  let b₁ := rotateRight (s[b] ^^^ c₁) 12
  let a₂ := a₁ + b₁ + y
  let d₂ := rotateRight (d₁ ^^^ a₂) 8
  let c₂ := c₁ + d₂
  let b₂ := rotateRight (b₁ ^^^ c₂) 7
  (((s.set a a₂).set b b₂).set c c₂).set d d₂

/-- One round: four columns, then four diagonals. -/
def round (s m : Vector UInt32 16) : Vector UInt32 16 :=
  let s := mix s 0 4 8 12 m[0] m[1]
  let s := mix s 1 5 9 13 m[2] m[3]
  let s := mix s 2 6 10 14 m[4] m[5]
  let s := mix s 3 7 11 15 m[6] m[7]
  let s := mix s 0 5 10 15 m[8] m[9]
  let s := mix s 1 6 11 12 m[10] m[11]
  let s := mix s 2 7 8 13 m[12] m[13]
  mix s 3 4 9 14 m[14] m[15]

/-- Rounds, permuting the message between them. -/
def rounds : Nat → Vector UInt32 16 → Vector UInt32 16 → Vector UInt32 16
  | 0, s, _ => s
  | n + 1, s, m => rounds n (round s m) (permutation.map fun i => m[i])

/-- The compression function, keeping the eight words that chain on. -/
def compress (cv : ChainingValue) (block : Vector UInt32 16) (counter : Nat) (length : Nat)
    (flags : UInt32) : ChainingValue :=
  let tail : Vector UInt32 8 :=
    #v[iv[0], iv[1], iv[2], iv[3], UInt32.ofNat counter, UInt32.ofNat (counter >>> 32),
      UInt32.ofNat length, flags]
  let s := rounds 7 (cv ++ tail) block
  Vector.ofFn fun i : Fin 8 => s[i] ^^^ s[i.val + 8]

/-- Sixteen little-endian words, missing octets counting as zero. -/
def words (block : Bytes) : Vector UInt32 16 :=
  Vector.ofFn fun i : Fin 16 => UInt32.ofNat (Bytes.toNatLE ((block.drop (4 * i)).take 4))

/-- A compression that is still to be run: the last block of a chunk, or a parent node.
Only at the root does it carry the root flag. -/
structure Output where
  cv : ChainingValue
  block : Vector UInt32 16
  counter : Nat
  length : Nat
  flags : UInt32

/-- The words of an output inside the tree. -/
def Output.chain (o : Output) : ChainingValue :=
  compress o.cv o.block o.counter o.length o.flags

/-- The words of an output at the root. -/
def Output.digest (o : Output) : ChainingValue :=
  compress o.cv o.block 0 o.length (o.flags ||| root)

/-- The output of a chunk whose remaining octets are given. -/
def chunkOutput (cv : ChainingValue) (flags : UInt32) (counter : Nat) (chunk : Bytes) : Output :=
  if chunk.length ≤ blockLength then
    ⟨cv, words chunk, counter, chunk.length, flags ||| chunkEnd⟩
  else
    chunkOutput (compress cv (words (chunk.take blockLength)) counter blockLength flags) 0 counter
      (chunk.drop blockLength)
termination_by chunk.length
decreasing_by simp only [List.length_drop, blockLength] at *; omega

/-- The output of the parent of two nodes. -/
def parentOutput (left right : ChainingValue) : Output :=
  ⟨iv, (left ++ right : Vector UInt32 16), 0, blockLength, parent⟩

/-- The largest power of two below `n`, for `n` above one: the chunks of a left subtree. -/
def leftChunks (n : Nat) : Nat :=
  1 <<< (n - 1).log2

/-- The output of the tree over the given octets, whose first chunk has number `counter`.
The left subtree holds the largest power of two of chunks that leaves some for the right.
The height bounds the recursion; a tree over `n` octets is less than `n` high. -/
def treeOutput : (height : Nat) → (counter : Nat) → Bytes → Output
  | 0, counter, bs => chunkOutput iv chunkStart counter bs
  | height + 1, counter, bs =>
    if bs.length ≤ chunkLength then chunkOutput iv chunkStart counter bs
    else
      let left := leftChunks ((bs.length + chunkLength - 1) / chunkLength)
      parentOutput (treeOutput height counter (bs.take (left * chunkLength))).chain
        (treeOutput height (counter + left) (bs.drop (left * chunkLength))).chain

/-- The 32 octets of the digest. -/
def hash (bs : Bytes) : Bytes :=
  (treeOutput bs.length 0 bs).digest.toList.flatMap fun w => Bytes.ofNatLE 4 w.toNat

end CodeGraph.Blake3
