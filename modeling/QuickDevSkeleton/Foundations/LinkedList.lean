import Mathlib.Data.List.Nodup
import Mathlib.Logic.Function.Basic

/-!
# Circular doubly linked lists

An intrusive list: every cell `ι` carries a link to the next one and a link to the previous one,
and the list is what the links lead through on the way from its head back to the head.
`Ring` says which cells these are; the lemmas say what inserting and removing a cell do to it.
-/

namespace Foundations

/-- The two links of every cell. -/
structure Links (ι : Type*) where
  next : ι → ι
  prev : ι → ι

namespace Links

variable {ι : Type*}

/-- The links lead from `a` through `xs` to `b`, and back the same way. -/
def Path (l : Links ι) : ι → List ι → ι → Prop
  | a, [], b => l.next a = b ∧ l.prev b = a
  | a, x :: xs, b => (l.next a = x ∧ l.prev x = a) ∧ Path l x xs b

/-- The cells of the list at `h`, in order. -/
structure Ring (l : Links ι) (h : ι) (xs : List ι) : Prop where
  path : l.Path h xs h
  nodup : (h :: xs).Nodup

variable {l m : Links ι} {a b h x : ι} {xs ys : List ι}

lemma Path.next (hp : l.Path a (x :: xs) b) : l.next a = x := hp.1.1

/-- A path goes through a cell if its two parts do. -/
lemma path_append : l.Path a (xs ++ x :: ys) b ↔ l.Path a xs x ∧ l.Path x ys b := by
  induction xs generalizing a with
  | nil => exact Iff.rfl
  | cons y xs ih => simp only [List.cons_append, Path, ih, and_assoc]

/-- A path depends only on the links it follows. -/
lemma Path.congr (hp : l.Path a xs b) (hnext : ∀ y ∈ a :: xs, m.next y = l.next y)
    (hprev : ∀ y ∈ xs ++ [b], m.prev y = l.prev y) : m.Path a xs b := by
  induction xs generalizing a with
  | nil =>
    refine ⟨?_, ?_⟩
    · rw [hnext a List.mem_cons_self]
      exact hp.1
    · rw [hprev b List.mem_cons_self]
      exact hp.2
  | cons x xs ih =>
    refine ⟨⟨?_, ?_⟩, ih hp.2 ?_ ?_⟩
    · rw [hnext a List.mem_cons_self]
      exact hp.1.1
    · rw [hprev x List.mem_cons_self]
      exact hp.1.2
    · exact fun y hy => hnext y (List.mem_cons_of_mem a hy)
    · exact fun y hy => hprev y (List.mem_cons_of_mem x hy)

/-- A path to `b` ends where `b` leads back to. -/
lemma Path.prev_mem (hp : l.Path a xs b) : l.prev b ∈ a :: xs := by
  induction xs generalizing a with
  | nil => exact hp.2 ▸ List.mem_cons_self
  | cons x xs ih => exact List.mem_cons_of_mem a (ih hp.2)

/-- A path from `a` goes on where `a` leads to. -/
lemma Path.next_mem (hp : l.Path a xs b) : l.next a ∈ xs ++ [b] := by
  cases xs with
  | nil => exact hp.1 ▸ List.mem_singleton_self _
  | cons x xs => exact hp.next ▸ List.mem_cons_self

/-- The last link of a path may lead elsewhere. -/
lemma Path.redirect (hp : l.Path a xs b) (hnd : (a :: xs).Nodup)
    (hlast : m.next (l.prev b) = x) (hback : m.prev x = l.prev b)
    (hnext : ∀ y ∈ a :: xs, y ≠ l.prev b → m.next y = l.next y)
    (hprev : ∀ y ∈ xs, m.prev y = l.prev y) : m.Path a xs x := by
  induction xs generalizing a with
  | nil =>
    have hb : l.prev b = a := hp.2
    rw [hb] at hlast hback
    exact ⟨hlast, hback⟩
  | cons y ys ih =>
    obtain ⟨ha, hnd'⟩ := List.nodup_cons.mp hnd
    have hne : a ≠ l.prev b := fun heq => ha (heq ▸ hp.2.prev_mem)
    refine ⟨⟨?_, ?_⟩, ih hp.2 hnd' ?_ ?_⟩
    · rw [hnext a List.mem_cons_self hne]
      exact hp.1.1
    · rw [hprev y List.mem_cons_self]
      exact hp.1.2
    · exact fun z hz => hnext z (List.mem_cons_of_mem a hz)
    · exact fun z hz => hprev z (List.mem_cons_of_mem y hz)

lemma Ring.next_nil (hr : l.Ring h []) : l.next h = h := hr.path.1

lemma Ring.next_cons (hr : l.Ring h (x :: xs)) : l.next h = x := hr.path.next

section Operations

variable [DecidableEq ι] (l)

/-- The cell `x` is the head of an empty list. -/
def init (x : ι) : Links ι where
  next := Function.update l.next x x
  prev := Function.update l.prev x x

/-- Insert `x` between `a` and `b`. -/
def insert (x a b : ι) : Links ι where
  next := Function.update (Function.update l.next x b) a x
  prev := Function.update (Function.update l.prev b x) x a

/-- Insert `x` at the end of the list at `h`. -/
def insertLast (x h : ι) : Links ι :=
  l.insert x (l.prev h) h

/-- Take `x` out of its list, and leave the links `p` and `q` in it. -/
def remove (x p q : ι) : Links ι where
  next := Function.update (Function.update l.next (l.prev x) (l.next x)) x p
  prev := Function.update (Function.update l.prev (l.next x) (l.prev x)) x q

variable {l}

lemma ring_init (l : Links ι) (h : ι) : (l.init h).Ring h [] where
  path := ⟨Function.update_self _ _ _, Function.update_self _ _ _⟩
  nodup := List.nodup_singleton h

/-- The links of a cell outside the list may change. -/
lemma Ring.init (hr : l.Ring h xs) (hx : x ∉ h :: xs) : (l.init x).Ring h xs where
  path := by
    refine hr.path.congr (fun y hy => ?_) fun y hy => ?_
    · exact Function.update_of_ne (ne_of_mem_of_not_mem hy hx) _ _
    · refine Function.update_of_ne (ne_of_mem_of_not_mem ?_ hx) _ _
      rcases List.mem_append.mp hy with hy | hy
      · exact List.mem_cons_of_mem h hy
      · rw [List.mem_singleton.mp hy]
        exact List.mem_cons_self
  nodup := hr.nodup

/-- The list with `x` inserted at its end. -/
lemma Ring.insertLast (hr : l.Ring h xs) (hx : x ∉ h :: xs) :
    (l.insertLast x h).Ring h (xs ++ [x]) where
  path := by
    have hlast : l.prev h ≠ x := ne_of_mem_of_not_mem hr.path.prev_mem hx
    have hhead : h ≠ x := ne_of_mem_of_not_mem List.mem_cons_self hx
    refine path_append.mpr ⟨hr.path.redirect hr.nodup ?_ ?_ ?_ ?_, ?_, ?_⟩
    · exact Function.update_self _ _ _
    · exact Function.update_self _ _ _
    · intro y hy hyl
      change Function.update (Function.update l.next x h) (l.prev h) x y = l.next y
      rw [Function.update_of_ne hyl, Function.update_of_ne (ne_of_mem_of_not_mem hy hx)]
    · intro y hy
      have hyh : y ≠ h := ne_of_mem_of_not_mem hy (List.nodup_cons.mp hr.nodup).1
      have hyx : y ≠ x := ne_of_mem_of_not_mem (List.mem_cons_of_mem h hy) hx
      change Function.update (Function.update l.prev h x) x (l.prev h) y = l.prev y
      rw [Function.update_of_ne hyx, Function.update_of_ne hyh]
    · change Function.update (Function.update l.next x h) (l.prev h) x x = h
      rw [Function.update_of_ne hlast.symm, Function.update_self]
    · change Function.update (Function.update l.prev h x) x (l.prev h) h = x
      rw [Function.update_of_ne hhead, Function.update_self]
  nodup := by
    rw [← List.cons_append]
    exact List.Nodup.append hr.nodup (List.nodup_singleton x) (List.disjoint_singleton.mpr hx)

/-- The head leads where the removed first cell has led. -/
lemma Ring.next_remove (hr : l.Ring h (x :: xs)) (p q : ι) :
    (l.remove x p q).next h = l.next x := by
  have hhx : h ≠ x := fun heq => (List.nodup_cons.mp hr.nodup).1 (heq ▸ List.mem_cons_self)
  change Function.update (Function.update l.next (l.prev x) (l.next x)) x p h = l.next x
  rw [Function.update_of_ne hhx, hr.path.1.2, Function.update_self]

/-- The list without its first cell. -/
lemma Ring.remove_first (hr : l.Ring h (x :: xs)) (p q : ι) : (l.remove x p q).Ring h xs where
  path := by
    obtain ⟨hh, hnd⟩ := List.nodup_cons.mp hr.nodup
    have hhx : h ≠ x := fun heq => hh (heq ▸ List.mem_cons_self)
    have hx : x ∉ xs := (List.nodup_cons.mp hnd).1
    obtain ⟨⟨hnext, hprev⟩, hp⟩ := hr.path
    cases xs with
    | nil =>
      refine ⟨?_, ?_⟩
      · change Function.update (Function.update l.next (l.prev x) (l.next x)) x p h = h
        rw [Function.update_of_ne hhx, hprev, Function.update_self]
        exact hp.1
      · change Function.update (Function.update l.prev (l.next x) (l.prev x)) x q h = h
        rw [Function.update_of_ne hhx, hp.1, Function.update_self]
        exact hprev
    | cons y ys =>
      obtain ⟨⟨hxy, -⟩, hp⟩ := hp
      have hyx : y ≠ x := ne_of_mem_of_not_mem List.mem_cons_self hx
      refine ⟨⟨?_, ?_⟩, hp.congr (fun z hz => ?_) fun z hz => ?_⟩
      · change Function.update (Function.update l.next (l.prev x) (l.next x)) x p h = y
        rw [Function.update_of_ne hhx, hprev, Function.update_self]
        exact hxy
      · change Function.update (Function.update l.prev (l.next x) (l.prev x)) x q y = h
        rw [Function.update_of_ne hyx, hxy, Function.update_self]
        exact hprev
      · have hzx : z ≠ x := ne_of_mem_of_not_mem hz hx
        have hzh : z ≠ h := ne_of_mem_of_not_mem (List.mem_cons_of_mem x hz) hh
        change Function.update (Function.update l.next (l.prev x) (l.next x)) x p z = l.next z
        rw [Function.update_of_ne hzx, hprev, Function.update_of_ne hzh]
      · have hz' : z ≠ x ∧ z ≠ y := by
          rcases List.mem_append.mp hz with hz | hz
          · have hnd' := List.nodup_cons.mp (List.nodup_cons.mp hnd).2
            exact ⟨ne_of_mem_of_not_mem (List.mem_cons_of_mem y hz) hx,
              ne_of_mem_of_not_mem hz hnd'.1⟩
          · rw [List.mem_singleton.mp hz]
            refine ⟨hhx, fun hhy => hh ?_⟩
            rw [hhy]
            exact List.mem_cons_of_mem x List.mem_cons_self
        change Function.update (Function.update l.prev (l.next x) (l.prev x)) x q z = l.prev z
        rw [Function.update_of_ne hz'.1, hxy, Function.update_of_ne hz'.2]
  nodup := by
    obtain ⟨hh, hnd⟩ := List.nodup_cons.mp hr.nodup
    exact List.nodup_cons.mpr ⟨fun hm => hh (List.mem_cons_of_mem x hm),
      (List.nodup_cons.mp hnd).2⟩

end Operations

end Links

end Foundations
