/-
**Calls of the kernel vector, on memory.**

`VectorCall` is a call of one of the functions of `lib/vector/vector.c`, with the pointers that it is given; `run` is what it
does to the vector and to the memory, and which bytes it reads and writes. The list of blocks that a vector stands for is
`onList`: what the call returns and changes as an operation of lists.

* `run` — the calls as the code computes them;
* `onList` — the operations of lists;
* `Represents` — the vector holds the blocks of a list, within its capacity.
-/

import PeachOS.Lib.BlockArray
import PeachOS.Vector.Model

namespace PeachOS

open ByteStore BlockArray

/-! ### The code -/

/-- Bytes that are read or written. -/
structure Area where
  start : Nat
  len : Nat
deriving DecidableEq

def Area.bytes (area : Area) : Set Nat := Set.Ico area.start (area.start + area.len)

/-- What a call returns, the vector and the kernel then, and the bytes that it touched. -/
structure VectorResult where
  res : Int
  vec : Vector
  kernel : Kernel
  touched : List Area

/-- `vector_push`. -/
def vectorPushElem (k : Kernel) (vec : Vector) (elem : Nat) : Option VectorResult :=
  match vectorResize k vec 1 with
  | none => none
  | some (res, vec, k) =>
      if res < 0 then some ⟨res, vec, k, []⟩
      else
        let dest := vectorMemoryAtIndex vec vec.tElems
        some {
          res := toInt32 vec.tElems
          vec := { vec with tElems := toWord (vec.tElems + 1) }
          kernel := { k with mem := memcpy k.mem dest elem vec.eSize }
          touched := [⟨dest, vec.eSize % 2 ^ 32⟩, ⟨elem, vec.eSize % 2 ^ 32⟩] }

/-- `vector_pop`. -/
def vectorPop (k : Kernel) (vec : Vector) : VectorResult :=
  if vec.tElems = 0 then ⟨eio, vec, k, []⟩ else ⟨0, { vec with tElems := vec.tElems - 1 }, k, []⟩

/-- `vector_overwrite`: the `int` index is compared as a `size_t`. -/
def vectorOverwriteElem (k : Kernel) (vec : Vector) (index : Int) (elem elemSize : Nat) : VectorResult :=
  let res := vectorValidBounds vec (toWord index)
  if res < 0 then ⟨res, vec, k, []⟩
  else if elemSize < vec.eSize then ⟨einvarg, vec, k, []⟩
  else
    let dest := vectorMemoryAtIndex vec (toWord index)
    ⟨0, vec, { k with mem := memcpy k.mem dest elem vec.eSize }, [⟨dest, vec.eSize % 2 ^ 32⟩, ⟨elem, vec.eSize % 2 ^ 32⟩]⟩

/-- The end of `vector_at` on an error, which clears `data_out`. -/
def vectorAtFails (k : Kernel) (vec : Vector) (res : Int) (dataOut size : Nat) : VectorResult :=
  ⟨res, vec, { k with mem := memset k.mem dataOut 0x00#8 size }, [⟨dataOut, min size (2 ^ 31)⟩]⟩

/-- `vector_at`. -/
def vectorAtOut (k : Kernel) (vec : Vector) (index dataOut size : Nat) : VectorResult :=
  if size < vec.eSize then vectorAtFails k vec einvarg dataOut size
  else if dataOut = 0 then vectorAtFails k vec einvarg dataOut size
  else
    let res := vectorValidBounds vec index
    if res < 0 then vectorAtFails k vec res dataOut size
    else
      let source := vectorMemoryAtIndex vec index
      ⟨res, vec, { k with mem := memcpy k.mem dataOut source vec.eSize },
        [⟨dataOut, vec.eSize % 2 ^ 32⟩, ⟨source, vec.eSize % 2 ^ 32⟩]⟩

/-- `vector_back`. -/
def vectorBack (k : Kernel) (vec : Vector) (dataOut size : Nat) : VectorResult :=
  vectorAtOut k vec (toWord (vec.tElems - 1 : Int)) dataOut size

/-- `memcmp` from the character `i` on; `char` is signed. -/
def memcmpLoop (mem : Memory) (s1 s2 : Nat) : (fuel i : Nat) → Int
  | 0, _ => 0
  | fuel + 1, i =>
      if mem (s1 + i) ≠ mem (s2 + i) then if (mem (s1 + i)).slt (mem (s2 + i)) then -1 else 1
      else memcmpLoop mem s1 s2 fuel (i + 1)

/-- `memcmp`, with the count converted to `int`. -/
def memcmp (mem : Memory) (s1 s2 count : Nat) : Int := memcmpLoop mem s1 s2 (toInt32 count).toNat 0

/-- How the search of `vector_pop_element` ends. -/
structure VectorSearch where
  res : Int
  indexToRemove : Option Nat
  kernel : Kernel
  touched : List Area

/-- The loop of `vector_pop_element` over the elements from `i` on. -/
def vectorSearch (vec : Vector) (tmpMem memVal size : Nat) : (fuel i : Nat) → Kernel → List Area → VectorSearch
  | 0, _, k, touched => ⟨0, none, k, touched⟩
  | fuel + 1, i, k, touched =>
      let element := vectorAtOut k vec i tmpMem size
      let touched := touched ++ element.touched
      if element.res < 0 then ⟨element.res, none, element.kernel, touched⟩
      else
        let touched := touched ++ [⟨tmpMem, size⟩, ⟨memVal, size⟩]
        if memcmp element.kernel.mem tmpMem memVal size = 0 then ⟨0, some i, element.kernel, touched⟩
        else vectorSearch vec tmpMem memVal size fuel (i + 1) element.kernel touched

/-- `vector_pop_element`. -/
def vectorPopElem (k : Kernel) (vec : Vector) (memVal size : Nat) : VectorResult :=
  if size ≠ vec.eSize then ⟨einvarg, vec, k, []⟩
  else
    let tmp := kzalloc k size
    if tmp.1 = 0 then ⟨enomem, vec, tmp.2, []⟩
    else
      let totalElements := vectorCount vec
      let search := vectorSearch vec tmp.1 memVal size totalElements 0 tmp.2 []
      if search.res < 0 then ⟨search.res, vec, kfree search.kernel tmp.1, search.touched⟩
      else
        match search.indexToRemove with
        | none => ⟨eio, vec, kfree search.kernel tmp.1, search.touched⟩
        | some indexToRemove =>
            if indexToRemove = totalElements - 1 then
              let popped := vectorPop search.kernel vec
              ⟨popped.res, popped.vec, kfree popped.kernel tmp.1, search.touched ++ popped.touched⟩
            else
              let toDelete := toWord (vec.memory + indexToRemove * size)
              let next := toWord (toDelete + size)
              let totalBytesToCopy := toWord ((vec.tElems - indexToRemove - 1) * size)
              ⟨0, { vec with tElems := vec.tElems - 1 },
                kfree { search.kernel with mem := memcpy search.kernel.mem toDelete next totalBytesToCopy } tmp.1,
                search.touched ++ [⟨toDelete, totalBytesToCopy % 2 ^ 32⟩, ⟨next, totalBytesToCopy % 2 ^ 32⟩]⟩

/-- A call, with its pointers and sizes. -/
inductive VectorCall where
  | push (elem : Nat)
  | pop
  | overwrite (index : Int) (elem elemSize : Nat)
  | at (index dataOut size : Nat)
  | back (dataOut size : Nat)
  | popElement (memVal size : Nat)
  | count
deriving DecidableEq

namespace VectorCall

/-- **One call**; `none` when `krealloc` panics. -/
def run (k : Kernel) (vec : Vector) : VectorCall → Option VectorResult
  | push elem => vectorPushElem k vec elem
  | pop => some (vectorPop k vec)
  | overwrite index elem elemSize => some (vectorOverwriteElem k vec index elem elemSize)
  | .at index dataOut size => some (vectorAtOut k vec index dataOut size)
  | back dataOut size => some (vectorBack k vec dataOut size)
  | popElement memVal size => some (vectorPopElem k vec memVal size)
  | count => some ⟨vectorCount vec, vec, k, []⟩

/-! ### The calls as operations of lists -/

/-- What an operation of lists returns, the list then, and the bytes that it hands out. -/
structure ListResult where
  res : Int
  elements : List (List Byte)
  out : Option (Nat × List Byte)
deriving DecidableEq

/-- An element that is read: its bytes, or zeros for an error. -/
def readElement (elements : List (List Byte)) (eSize : Nat) (element : Option (List Byte)) (dataOut size : Nat) : ListResult :=
  if dataOut = 0 then ⟨einvarg, elements, none⟩
  else if size < eSize then ⟨einvarg, elements, some (dataOut, List.replicate size 0x00#8)⟩
  else
    match element with
    | none => ⟨einvarg, elements, some (dataOut, List.replicate size 0x00#8)⟩
    | some bytes => ⟨0, elements, some (dataOut, bytes)⟩

/-- **The operation of a call on a list of blocks**; `memory` says whether the block for a comparison could be had. -/
def onList (mem : Memory) (eSize : Nat) (memory : Bool) (elements : List (List Byte)) : VectorCall → ListResult
  | push elem => ⟨elements.length, elements ++ [window mem elem eSize], none⟩
  | pop => if elements = [] then ⟨eio, elements, none⟩ else ⟨0, elements.dropLast, none⟩
  | overwrite index elem elemSize =>
      if index < 0 ∨ elements.length ≤ index ∨ elemSize < eSize then ⟨einvarg, elements, none⟩
      else ⟨0, elements.set index.toNat (window mem elem eSize), none⟩
  | .at index dataOut size => readElement elements eSize elements[index]? dataOut size
  | back dataOut size => readElement elements eSize elements.getLast? dataOut size
  | popElement memVal size =>
      if size ≠ eSize then ⟨einvarg, elements, none⟩
      else if memory = false then ⟨enomem, elements, none⟩
      else if window mem memVal eSize ∈ elements then ⟨0, elements.erase (window mem memVal eSize), none⟩
      else ⟨eio, elements, none⟩
  | count => ⟨elements.length, elements, none⟩

end VectorCall

/-- **A vector that stands for a list of blocks**, in memory of its capacity. Without memory it has no elements, and no room
for one, so that the next one allocates. -/
structure Represents (mem : Memory) (vec : Vector) (elements : List (List Byte)) : Prop where
  count : vec.tElems = elements.length
  few : vec.tElems < 2 ^ 31
  capacity : vec.tElems ≤ vec.tmElems
  holds : HoldsBlocks mem vec.memory vec.eSize elements
  null : vec.memory = 0 → vec.eSize = 0 ∨ vec.tElems = 0 ∧ vec.tmElems ≤ 1
  pointer : vec.memory < 2 ^ 64
  end_ : vec.memory + vec.tmElems * vec.eSize ≤ 2 ^ 64

end PeachOS
