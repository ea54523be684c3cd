import Mathlib.Data.Finset.Basic
import Mathlib.Data.Finset.Option
import Mathlib.Data.List.Pairwise

/-!
# Footprints

A step over a set of keys needs some of them, makes others that must not be there yet, and drops some. Of a run
whose steps keep out of each other's way, the union of the steps' footprints says from which sets it goes through,
and what it leaves.
-/

/-- What a step asks of a set of keys and does to it. -/
structure Footprint (κ : Type) where
  needs : Finset κ
  makes : Finset κ
  drops : Finset κ

namespace Footprint

variable {κ : Type} [DecidableEq κ] {f g : Footprint κ} {keys keys' : Finset κ} {steps steps' : List (Footprint κ)}

/-- The step goes through. -/
def Fits (f : Footprint κ) (keys : Finset κ) : Prop := f.needs ⊆ keys ∧ Disjoint f.makes keys

instance (f : Footprint κ) (keys : Finset κ) : Decidable (f.Fits keys) := inferInstanceAs (Decidable (_ ∧ _))

def after (f : Footprint κ) (keys : Finset κ) : Finset κ := (keys ∪ f.makes) \ f.drops

def step (f : Footprint κ) (keys : Finset κ) : Option (Finset κ) := if f.Fits keys then some (f.after keys) else none

def run (steps : List (Footprint κ)) (keys : Finset κ) : Option (Finset κ) :=
  steps.foldlM (fun keys f => f.step keys) keys

def total : List (Footprint κ) → Footprint κ
  | [] => ⟨∅, ∅, ∅⟩
  | f :: steps => ⟨f.needs ∪ (total steps).needs, f.makes ∪ (total steps).makes, f.drops ∪ (total steps).drops⟩

theorem mem_needs_total {key : κ} : key ∈ (total steps).needs ↔ ∃ f ∈ steps, key ∈ f.needs := by
  induction steps with
  | nil => simp [total]
  | cons f steps ih => simp [total, ih]

theorem mem_makes_total {key : κ} : key ∈ (total steps).makes ↔ ∃ f ∈ steps, key ∈ f.makes := by
  induction steps with
  | nil => simp [total]
  | cons f steps ih => simp [total, ih]

theorem mem_drops_total {key : κ} : key ∈ (total steps).drops ↔ ∃ f ∈ steps, key ∈ f.drops := by
  induction steps with
  | nil => simp [total]
  | cons f steps ih => simp [total, ih]

/-! ### Steps out of each other's way -/

/-- The later step makes nothing that the earlier one made, needed or dropped, and needs nothing that it dropped. -/
structure Before (f g : Footprint κ) : Prop where
  makes : Disjoint f.makes g.makes
  needs : Disjoint f.needs g.makes
  drops_makes : Disjoint f.drops g.makes
  drops_needs : Disjoint f.drops g.needs

structure Ordered (steps : List (Footprint κ)) : Prop where
  pairwise : steps.Pairwise Before
  fresh : ∀ f ∈ steps, Disjoint f.needs f.makes

theorem Before.total (h : ∀ g ∈ steps, Before f g) : Before f (total steps) where
  makes := Finset.disjoint_left.mpr fun key hf hg => by
    obtain ⟨g, hg, hkey⟩ := mem_makes_total.mp hg
    exact Finset.disjoint_left.mp (h g hg).makes hf hkey
  needs := Finset.disjoint_left.mpr fun key hf hg => by
    obtain ⟨g, hg, hkey⟩ := mem_makes_total.mp hg
    exact Finset.disjoint_left.mp (h g hg).needs hf hkey
  drops_makes := Finset.disjoint_left.mpr fun key hf hg => by
    obtain ⟨g, hg, hkey⟩ := mem_makes_total.mp hg
    exact Finset.disjoint_left.mp (h g hg).drops_makes hf hkey
  drops_needs := Finset.disjoint_left.mpr fun key hf hg => by
    obtain ⟨g, hg, hkey⟩ := mem_needs_total.mp hg
    exact Finset.disjoint_left.mp (h g hg).drops_needs hf hkey

theorem Before.after (h : Before f g) :
    (keys ∪ (f.makes ∪ g.makes)) \ (f.drops ∪ g.drops) = (f.after keys ∪ g.makes) \ g.drops := by
  have hdropsMakes := Finset.disjoint_left.mp h.drops_makes
  ext key
  simp only [Footprint.after, Finset.mem_sdiff, Finset.mem_union]
  grind

omit [DecidableEq κ] in
theorem Ordered.append (h : Ordered steps) (h' : Ordered steps') (hbefore : ∀ f ∈ steps, ∀ g ∈ steps', Before f g) :
    Ordered (steps ++ steps') where
  pairwise := List.pairwise_append.mpr ⟨h.pairwise, h'.pairwise, hbefore⟩
  fresh := by
    intro f hf
    rcases List.mem_append.mp hf with hf | hf
    · exact h.fresh f hf
    · exact h'.fresh f hf

omit [DecidableEq κ] in
/-- Steps that do not need what the next ones make may as well come first. -/
theorem Ordered.exchange {front middle rest : List (Footprint κ)} (h : Ordered (front ++ steps' ++ (middle ++ rest)))
    (hbefore : ∀ f ∈ middle, ∀ g ∈ steps', Before f g) : Ordered (front ++ middle ++ (steps' ++ rest)) where
  pairwise := by
    have hpairwise := h.pairwise
    simp only [List.pairwise_append, List.mem_append] at hpairwise ⊢
    grind
  fresh := by
    intro f hf
    refine h.fresh f ?_
    simp only [List.mem_append] at hf ⊢
    tauto

section Ensure

variable {seen base used : Finset κ} {items items' : List (Finset κ × κ)} {closed : Option κ}

/-- The steps that make the keys which were missing, each with what it needs. -/
def ensure (seen : Finset κ) (items : List (Finset κ × κ)) : List (Footprint κ) :=
  (items.filter fun item => item.2 ∉ seen).map fun item => ⟨item.1, {item.2}, ∅⟩

def Distinct (seen : Finset κ) (items : List (Finset κ × κ)) : Prop :=
  items.Pairwise fun item item' => item.2 = item'.2 → item.2 ∈ seen

instance (seen : Finset κ) (items : List (Finset κ × κ)) : Decidable (Distinct seen items) :=
  inferInstanceAs (Decidable (List.Pairwise _ _))

/-- The steps make what was missing among the items, use it and what is in `base`, and drop one key at the end. -/
structure Prepares (seen base : Finset κ) (items : List (Finset κ × κ)) (used : Finset κ) (closed : Option κ)
    (steps : List (Footprint κ)) : Prop where
  ordered : Ordered steps
  needs_le : ∀ key ∈ (total steps).needs, key ∈ base ∨ key ∈ used
  used_le : used ⊆ (total steps).needs
  used_asked : used ⊆ (items.map Prod.snd).toFinset
  makes : (total steps).makes = (items.map Prod.snd).toFinset \ seen
  drops : (total steps).drops = closed.toFinset

/-- In another order, in which they still keep out of each other's way, the steps prepare the same. -/
theorem Prepares.perm (h : Prepares seen base items used closed steps) (hperm : steps'.Perm steps)
    (hordered : Ordered steps') : Prepares seen base items used closed steps' := by
  have hneeds : (total steps').needs = (total steps).needs := by
    ext key
    simp only [mem_needs_total, hperm.mem_iff]
  have hmakes : (total steps').makes = (total steps).makes := by
    ext key
    simp only [mem_makes_total, hperm.mem_iff]
  have hdrops : (total steps').drops = (total steps).drops := by
    ext key
    simp only [mem_drops_total, hperm.mem_iff]
  exact ⟨hordered, hneeds ▸ h.needs_le, hneeds ▸ h.used_le, h.used_asked, hmakes ▸ h.makes, hdrops ▸ h.drops⟩

theorem Prepares.exchange {front middle rest : List (Footprint κ)}
    (h : Prepares seen base items used closed (front ++ steps' ++ (middle ++ rest)))
    (hbefore : ∀ f ∈ middle, ∀ g ∈ steps', Before f g) :
    Prepares seen base items used closed (front ++ middle ++ (steps' ++ rest)) := by
  refine h.perm ?_ (h.ordered.exchange hbefore)
  simp only [List.append_assoc]
  exact (List.perm_append_comm_assoc middle steps' rest).append_left front

end Ensure

end Footprint
