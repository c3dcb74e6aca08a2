import DaqServer.Sample

/-!
# Reducing the samples of a channel

A channel takes its first `oversample + 1` samples. With more than one extra conversion the first
sample is left out of the mean, which is rounded to the nearest count, a half upwards.
-/

namespace DaqServer

structure Accumulator where
  /-- Sum of the counts in the mean. -/
  sum : Nat
  /-- Samples taken. -/
  seen : Nat
  /-- Samples in the mean. -/
  included : Nat
  /-- Count and metadata of the first sample. -/
  first : Option (UInt16 × UInt32)
  deriving DecidableEq, Repr

namespace Accumulator

def empty : Accumulator := ⟨0, 0, 0, none⟩

/-- Take one more sample; those beyond the last wanted one are ignored. -/
def push (oversample : UInt8) (acc : Accumulator) (raw : UInt32) : Accumulator :=
  if oversample.toNat + 1 ≤ acc.seen then acc
  else
    let first := acc.first.or (some (Sample.count raw, Sample.metadata raw))
    if 1 < oversample ∧ acc.seen = 0 then { acc with seen := 1, first := first }
    else
      { sum := acc.sum + (Sample.count raw).toNat
        seen := acc.seen + 1
        included := acc.included + 1
        first := first }

def pushAll (oversample : UInt8) (acc : Accumulator) (raws : List UInt32) : Accumulator :=
  raws.foldl (push oversample) acc

@[simp] theorem pushAll_nil (oversample : UInt8) (acc : Accumulator) :
    acc.pushAll oversample [] = acc := rfl

theorem pushAll_cons (oversample : UInt8) (acc : Accumulator) (raw : UInt32) (raws : List UInt32) :
    acc.pushAll oversample (raw :: raws) = (acc.push oversample raw).pushAll oversample raws := rfl

theorem pushAll_append (oversample : UInt8) (acc : Accumulator) (xs ys : List UInt32) :
    acc.pushAll oversample (xs ++ ys) = (acc.pushAll oversample xs).pushAll oversample ys :=
  List.foldl_append

/-- The count of the channel: the rounded mean, or the first count when the mean is empty. -/
def reduce (acc : Accumulator) : Option UInt16 :=
  if acc.included = 0 then acc.first.map (·.1)
  else some (UInt16.ofNat ((acc.sum + acc.included / 2) / acc.included))

def metadata (acc : Accumulator) : Option UInt32 := acc.first.map (·.2)

end Accumulator

end DaqServer
