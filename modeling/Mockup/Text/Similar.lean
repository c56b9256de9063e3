/-!
# Similar words

How much two words have in common, so that a word that is not known can be answered with the known
ones that may have been meant. Common blocks are counted: the longest one, and then those to the
left of it and those to the right of it.

* `Similar.Block`, `Similar.longestBlock` — a stretch that stands in two words;
* `Similar.commonLength` — how many characters two words share in blocks;
* `Similar.among` — the words that are similar to a given one.
-/

namespace Mockup.Text.Similar

/-- **A stretch that stands in two words**: what is before it in the one and in the other, and how
long it is. -/
structure Block where
  first : Nat
  second : Nat
  size : Nat

/-- The longer one of two blocks; of equal ones the former. -/
def Block.orLonger (a b : Block) : Block := if a.size < b.size then b else a

/-- The length of the common beginning of two words. -/
def commonStart : List Char → List Char → Nat
  | c :: cs, d :: ds => if c = d then commonStart cs ds + 1 else 0
  | _, _ => 0

/-- The longest block with which the first word begins. -/
def longestFront (cs : List Char) : List Char → Block
  | [] => ⟨0, 0, 0⟩
  | d :: ds =>
    let later := longestFront cs ds
    Block.orLonger ⟨0, 0, commonStart cs (d :: ds)⟩ { later with second := later.second + 1 }

/-- **The longest block** of two words. Of several it is the one that is first in the first word,
and of those the one that is first in the second word. -/
def longestBlock (ds : List Char) : List Char → Block
  | [] => ⟨0, 0, 0⟩
  | c :: cs =>
    let later := longestBlock ds cs
    Block.orLonger (longestFront (c :: cs) ds) { later with first := later.first + 1 }

theorem commonStart_le (cs ds : List Char) : commonStart cs ds ≤ cs.length := by
  induction cs generalizing ds with
  | nil => simp [commonStart]
  | cons c cs ih =>
    cases ds with
    | nil => simp [commonStart]
    | cons d ds =>
      simp only [commonStart, List.length_cons]
      split
      · exact Nat.succ_le_succ (ih ds)
      · exact Nat.zero_le _

theorem longestFront_le (cs ds : List Char) :
    (longestFront cs ds).first + (longestFront cs ds).size ≤ cs.length := by
  induction ds with
  | nil => simp [longestFront]
  | cons d ds ih =>
    simp only [longestFront, Block.orLonger]
    split
    · exact ih
    · simpa using commonStart_le cs (d :: ds)

/-- The longest block lies within the first word. -/
theorem longestBlock_le (ds cs : List Char) :
    (longestBlock ds cs).first + (longestBlock ds cs).size ≤ cs.length := by
  induction cs with
  | nil => simp [longestBlock]
  | cons c cs ih =>
    simp only [longestBlock, Block.orLonger]
    split
    · simp only [List.length_cons]
      omega
    · exact longestFront_le (c :: cs) ds

/-- **How many characters two words share in blocks.** -/
def commonLength (cs ds : List Char) : Nat :=
  let block := longestBlock ds cs
  if _h : block.size = 0 then 0
  else
    block.size + commonLength (cs.take block.first) (ds.take block.second)
      + commonLength (cs.drop (block.first + block.size)) (ds.drop (block.second + block.size))
termination_by cs.length
decreasing_by
  all_goals
    have within := longestBlock_le ds cs
    simp only [block] at _h
    simp only [List.length_take, List.length_drop]
    omega

/-- Whether two words are similar: at least six in ten of their characters are shared. -/
def isSimilar (cs ds : List Char) : Bool :=
  3 * (cs.length + ds.length) ≤ 10 * commonLength cs ds

/-- **The words that are similar to a given one**, in the order of the alphabet. -/
def among (words : List String) (word : String) : List String :=
  (words.filter fun known => isSimilar known.toList word.toList).mergeSort

end Mockup.Text.Similar
