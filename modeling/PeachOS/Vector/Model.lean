/-
**The kernel vector of `lib/vector/vector.c`.**

The elements lie in memory, `e_size` bytes each; an element is the list of its bytes here. Only the
functions that the processes use for their allocations are modelled. `vectorResize` assigns the result of
`krealloc` before it looks at it, so a vector whose growth fails has no memory left.
-/

import PeachOS.Multiheap.Model

namespace PeachOS

open ByteStore

/-- `struct vector`, without its flags. -/
structure Vector where
  memory : Nat
  eSize : Nat
  tElems : Nat
  tmElems : Nat
  tReservedElements : Nat
deriving DecidableEq

def vectorCount (vec : Vector) : Nat := vec.tElems

def vectorValidBounds (vec : Vector) (index : Nat) : Int := if index < vec.tElems then 0 else einvarg

def vectorMemoryAtIndex (vec : Vector) (index : Nat) : Nat := toWord (vec.memory + vec.eSize * index)

/-- `vector_resize`; `none` when `krealloc` panics. -/
def vectorResize (k : Kernel) (vec : Vector) (totalNeededElements : Nat) : Option (Int × Vector × Kernel) :=
  let totalElementsRequired := toWord (vec.tElems + totalNeededElements)
  if vec.tmElems > totalElementsRequired then some (0, vec, k)
  else
    let finalTotalElementsRequired := toWord (vec.tReservedElements + totalElementsRequired)
    let totalBytesRequired := toWord (finalTotalElementsRequired * vec.eSize)
    match krealloc k vec.memory totalBytesRequired with
    | none => none
    | some (memory, k) =>
        let vec := { vec with memory := memory }
        if memory = 0 then some (enomem, vec, k)
        else some (0, { vec with tmElems := finalTotalElementsRequired }, k)

/-- `vector_push`: the index of the new element, converted to `int`. -/
def vectorPush (k : Kernel) (vec : Vector) (elem : List Byte) : Option (Int × Vector × Kernel) :=
  match vectorResize k vec 1 with
  | none => none
  | some (res, vec, k) =>
      if res < 0 then some (res, vec, k)
      else
        let mem := blit k.mem (vectorMemoryAtIndex vec vec.tElems) (elem.take (vec.eSize % 2 ^ 32))
        some (toInt32 vec.tElems, { vec with tElems := toWord (vec.tElems + 1) }, { k with mem := mem })

/-- `vector_overwrite`: the `int` index is compared as a `size_t`. -/
def vectorOverwrite (k : Kernel) (vec : Vector) (index : Int) (elem : List Byte) : Int × Kernel :=
  let res := vectorValidBounds vec (toWord index)
  if res < 0 then (res, k)
  else if elem.length < vec.eSize then (einvarg, k)
  else
    (0, { k with mem := blit k.mem (vectorMemoryAtIndex vec (toWord index)) (elem.take (vec.eSize % 2 ^ 32)) })

/-- `vector_at` into a buffer: the result and the buffer, cleared on an error. -/
def vectorAt (mem : Memory) (vec : Vector) (index : Nat) (dataOut : List Byte) : Int × List Byte :=
  if dataOut.length < vec.eSize then (einvarg, List.replicate dataOut.length 0x00#8)
  else
    let res := vectorValidBounds vec index
    if res < 0 then (res, List.replicate dataOut.length 0x00#8)
    else
      let count := vec.eSize % 2 ^ 32
      (0, window mem (vectorMemoryAtIndex vec index) count ++ dataOut.drop count)

end PeachOS
