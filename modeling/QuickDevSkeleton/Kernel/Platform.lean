import Mathlib.Data.BitVec

/-!
# Resources of platform devices

What the kernel tells a driver about the resources of a platform device.
-/

namespace QuickDevSkeleton

structure Resource where
  start : BitVec 64
  end_ : BitVec 64
  flags : BitVec 64
  deriving DecidableEq

def IORESOURCE_TYPE_BITS : BitVec 64 := 0x1f00
def IORESOURCE_IO : BitVec 64 := 0x100
def IORESOURCE_MEM : BitVec 64 := 0x200
def IORESOURCE_IRQ : BitVec 64 := 0x400

def resource_type (r : Resource) : BitVec 64 :=
  r.flags &&& IORESOURCE_TYPE_BITS

def resource_size (r : Resource) : BitVec 64 :=
  r.end_ - r.start + 1

/-- `platform_get_resource(dev, type, num)`: the resource of the type that has `num` before it. -/
def platform_get_resource : List Resource → BitVec 64 → ℕ → Option Resource
  | [], _, _ => none
  | r :: resource, type, num =>
    if type = resource_type r then
      if num = 0 then some r else platform_get_resource resource type (num - 1)
    else platform_get_resource resource type num

/-- The resources of a type, in order. -/
def ofType (resource : List Resource) (type : BitVec 64) : List Resource :=
  resource.filter fun r => type = resource_type r

section

variable {resource : List Resource} {type : BitVec 64}

lemma platform_get_resource_eq (num : ℕ) :
    platform_get_resource resource type num = (ofType resource type)[num]? := by
  induction resource generalizing num with
  | nil => rfl
  | cons r resource ih =>
    rw [platform_get_resource, ofType, List.filter_cons]
    by_cases htype : type = resource_type r
    · rw [if_pos htype, if_pos (decide_eq_true htype)]
      cases num with
      | zero => rfl
      | succ num =>
        rw [if_neg num.succ_ne_zero, List.getElem?_cons_succ, ih, ofType]
        rfl
    · rw [if_neg htype, if_neg (by simpa using htype), ih, ofType]

lemma type_of_mem {r : Resource} (h : r ∈ ofType resource type) : resource_type r = type := by
  have htype := List.of_mem_filter h
  exact (of_decide_eq_true htype).symm

/-- A resource has one type. -/
lemma ofType_length : (ofType resource IORESOURCE_IO).length +
    (ofType resource IORESOURCE_MEM).length + (ofType resource IORESOURCE_IRQ).length ≤
      resource.length := by
  induction resource with
  | nil => exact Nat.le_refl 0
  | cons r resource ih =>
    simp only [ofType, List.filter_cons, List.length_cons] at ih ⊢
    by_cases hio : IORESOURCE_IO = resource_type r
    · simp only [← hio, show ¬ IORESOURCE_MEM = IORESOURCE_IO by decide,
        show ¬ IORESOURCE_IRQ = IORESOURCE_IO by decide, decide_true, decide_false, if_true,
        Bool.false_eq_true, if_false, List.length_cons]
      omega
    · by_cases hmem : IORESOURCE_MEM = resource_type r
      · simp only [← hmem, show ¬ IORESOURCE_IO = IORESOURCE_MEM by decide,
          show ¬ IORESOURCE_IRQ = IORESOURCE_MEM by decide, decide_true, decide_false, if_true,
          Bool.false_eq_true, if_false, List.length_cons]
        omega
      · simp only [hio, hmem, decide_false, Bool.false_eq_true, if_false]
        split
        · rw [List.length_cons]
          omega
        · omega

end

end QuickDevSkeleton
