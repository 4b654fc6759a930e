import Mathlib.Tactic.Common
import CoreSplice.Bytes.Overlay

/-!
# Contents under layers of bytes

What several writes make of a content can be told without going through them.  At every position
stands the byte of the last write that covers it, or else what stood there before, or else a zero;
and the content is as long as the write that reaches furthest asks for.  So two lists of writes that
agree in these two respects make the same of every content.

* `Bytes.Layer` — a write: bytes and the position that they are laid over.
* `Bytes.overlayAll` — the content under layers, the first of them lowest.
* `Bytes.top?` — the byte of the uppermost layer at a position.
* **`Bytes.getElem?_overlayAll`**, **`Bytes.length_overlayAll_le_iff`** — the content under layers
  in these terms.
* `Bytes.overlayAll_congr`, `Bytes.overlayAll_eq_self` — when two lists of layers make the same of a
  content, and when layers leave it alone.
* `Bytes.overlayAll_of_agrees` — layers over what agrees with their own result.
* **`Bytes.overlayAll_of_perm`** — groups of layers that do not meet, in any order.
* **`Bytes.overlayAll_eq_of_parts`** — layers that hold parts of one content.
-/

namespace CoreSplice.Bytes

/-- Bytes with the position that they are laid over. -/
structure Layer where
  position : Nat
  data : Bytes

namespace Layer

/-- The byte of the layer at a position of the content. -/
def get? (layer : Layer) (i : Nat) : Option UInt8 :=
  if layer.position ≤ i then layer.data[i - layer.position]? else none

/-- Where the layer ends.  A layer without bytes ends nowhere. -/
def stop (layer : Layer) : Nat :=
  if layer.data = [] then 0 else layer.position + layer.data.length

lemma get?_eq_none_iff {layer : Layer} {i : Nat} :
    layer.get? i = none ↔ ¬ (layer.position ≤ i ∧ i < layer.position + layer.data.length) := by
  simp only [get?]
  split
  · rw [List.getElem?_eq_none_iff]
    omega
  · simp only [true_iff]
    omega

end Layer

/-- The content with layers laid over it in turn. -/
def overlayAll (content : Bytes) (layers : List Layer) : Bytes :=
  layers.foldl (fun content layer => content.overlay layer.position layer.data) content

/-- The byte of the uppermost layer that has one at the position. -/
def top? : List Layer → Nat → Option UInt8
  | [], _ => none
  | layer :: layers, i => (top? layers i).or (layer.get? i)

lemma overlayAll_append (content : Bytes) (first second : List Layer) :
    overlayAll content (first ++ second) = overlayAll (overlayAll content first) second :=
  List.foldl_append

/-! ## The uppermost layer -/

lemma top?_append (first second : List Layer) (i : Nat) :
    top? (first ++ second) i = (top? second i).or (top? first i) := by
  induction first with
  | nil => rw [List.nil_append, top?, Option.or_none]
  | cons layer first ih => rw [List.cons_append, top?, ih, top?, Option.or_assoc]

lemma top?_eq_none_iff {layers : List Layer} {i : Nat} :
    top? layers i = none ↔ ∀ layer ∈ layers, layer.get? i = none := by
  induction layers with
  | nil => simp [top?]
  | cons layer layers ih =>
    rw [top?, Option.or_eq_none_iff, ih, List.forall_mem_cons, and_comm]

lemma exists_of_top?_eq_some {layers : List Layer} {i : Nat} {b : UInt8}
    (h : top? layers i = some b) : ∃ layer ∈ layers, layer.get? i = some b := by
  induction layers with
  | nil => cases h
  | cons layer layers ih =>
    rw [top?, Option.or_eq_some_iff] at h
    rcases h with h | ⟨-, h⟩
    · obtain ⟨found, hmem, hget⟩ := ih h
      exact ⟨found, List.mem_cons_of_mem layer hmem, hget⟩
    · exact ⟨layer, List.mem_cons_self, h⟩

/-! ## The content under layers -/

lemma length_overlay_eq_max (content : Bytes) (layer : Layer) :
    (overlay content layer.position layer.data).length = max content.length layer.stop := by
  rw [length_overlay, Layer.stop]
  split
  · rw [Nat.max_zero]
  · rfl

/-- The content under layers is as long as they ask for, and no longer. -/
lemma length_overlayAll_le_iff {content : Bytes} {layers : List Layer} {m : Nat} :
    (overlayAll content layers).length ≤ m ↔
      content.length ≤ m ∧ ∀ layer ∈ layers, layer.stop ≤ m := by
  induction layers generalizing content with
  | nil => simp [overlayAll]
  | cons layer layers ih =>
    have hstep : overlayAll content (layer :: layers)
        = overlayAll (overlay content layer.position layer.data) layers := rfl
    rw [hstep, ih, length_overlay_eq_max, Nat.max_le, List.forall_mem_cons, and_assoc]

lemma length_le_length_overlayAll (content : Bytes) (layers : List Layer) :
    content.length ≤ (overlayAll content layers).length :=
  (length_overlayAll_le_iff.1 (Nat.le_refl _)).1

lemma stop_le_length_overlayAll (content : Bytes) {layers : List Layer} {layer : Layer}
    (h : layer ∈ layers) : layer.stop ≤ (overlayAll content layers).length :=
  (length_overlayAll_le_iff.1 (Nat.le_refl _)).2 layer h

/-- A layer shows where it covers the content. -/
lemma getElem?_resize_overlay {content : Bytes} {layer : Layer} {length : Nat}
    (hlength : (overlay content layer.position layer.data).length ≤ length) (i : Nat) :
    ((overlay content layer.position layer.data).resize length)[i]?
      = (layer.get? i).or (content.resize length)[i]? := by
  rw [length_overlay_eq_max] at hlength
  rw [getElem?_resize, getElem?_resize, length_overlay_eq_max]
  by_cases hdata : layer.data = []
  · simp [Layer.get?, Layer.stop, hdata]
  · rw [Layer.stop, if_neg hdata] at hlength ⊢
    rw [getElem?_overlay content layer.position hdata]
    by_cases hcovers : layer.position ≤ i ∧ i < layer.position + layer.data.length
    · rw [if_pos (by omega), if_pos (by omega), if_pos hcovers, Layer.get?, if_pos hcovers.1,
        List.getElem?_eq_getElem (by omega), Option.some_or]
    · rw [Layer.get?_eq_none_iff.2 hcovers, Option.none_or, if_neg hcovers]
      grind

/-- **What stands under layers** at every position: the byte of the uppermost layer there, or else
what the content has there after it was made long enough. -/
theorem getElem?_overlayAll (content : Bytes) (layers : List Layer) (i : Nat) :
    (overlayAll content layers)[i]?
      = (top? layers i).or (content.resize (overlayAll content layers).length)[i]? := by
  induction layers generalizing content with
  | nil => rw [overlayAll, List.foldl_nil, resize_self, top?, Option.none_or]
  | cons layer layers ih =>
    have hstep : overlayAll content (layer :: layers)
        = overlayAll (overlay content layer.position layer.data) layers := rfl
    rw [hstep, ih, top?, Option.or_assoc,
      getElem?_resize_overlay (length_le_length_overlayAll _ layers)]

/-- Where no layer lies the content stays as it is. -/
lemma getElem?_overlayAll_of_none {content : Bytes} {layers : List Layer} {i : Nat}
    (hi : i < content.length) (h : top? layers i = none) :
    (overlayAll content layers)[i]? = content[i]? := by
  have hlong := length_le_length_overlayAll content layers
  rw [getElem?_overlayAll, h, Option.none_or, getElem?_resize, if_pos (by omega), if_pos hi]

/-- Where layers lie the uppermost shows. -/
lemma getElem?_overlayAll_of_some {layers : List Layer} {i : Nat} {b : UInt8}
    (h : top? layers i = some b) (content : Bytes) :
    (overlayAll content layers)[i]? = some b := by
  rw [getElem?_overlayAll, h, Option.some_or]

/-! ## Layers that make the same of a content -/

/-- What lists of layers make of a content depends on where they end and on the uppermost bytes. -/
theorem overlayAll_congr {first second : List Layer}
    (hstops : ∀ m, (∀ layer ∈ first, layer.stop ≤ m) ↔ ∀ layer ∈ second, layer.stop ≤ m)
    (htop : ∀ i, top? first i = top? second i) (content : Bytes) :
    overlayAll content first = overlayAll content second := by
  have hiff (m : Nat) : (overlayAll content first).length ≤ m
      ↔ (overlayAll content second).length ≤ m := by
    rw [length_overlayAll_le_iff, length_overlayAll_le_iff, hstops]
  have hlength : (overlayAll content first).length = (overlayAll content second).length :=
    Nat.le_antisymm ((hiff _).2 (Nat.le_refl _)) ((hiff _).1 (Nat.le_refl _))
  apply List.ext_getElem?
  intro i
  rw [getElem?_overlayAll, getElem?_overlayAll, htop, hlength]

/-- Layers leave a content alone that reaches as far as they do and holds their bytes. -/
theorem overlayAll_eq_self {content : Bytes} {layers : List Layer}
    (hstops : ∀ layer ∈ layers, layer.stop ≤ content.length)
    (htop : ∀ i b, top? layers i = some b → content[i]? = some b) :
    overlayAll content layers = content := by
  have hlength : (overlayAll content layers).length = content.length :=
    Nat.le_antisymm (length_overlayAll_le_iff.2 ⟨Nat.le_refl _, hstops⟩)
      (length_le_length_overlayAll content layers)
  apply List.ext_getElem?
  intro i
  rw [getElem?_overlayAll, hlength, resize_self]
  cases hget : top? layers i with
  | none => rw [Option.none_or]
  | some b => rw [Option.some_or, htop i b hget]

/-- Layers leave a content alone that is no shorter than what they made of another one, and that
agrees with it where they lie. -/
lemma overlayAll_of_agrees {first second : Bytes} {layers : List Layer}
    (hlength : (overlayAll first layers).length ≤ second.length)
    (hsame : ∀ i b, top? layers i = some b → second[i]? = (overlayAll first layers)[i]?) :
    overlayAll second layers = second := by
  refine overlayAll_eq_self ?_ ?_
  · intro layer hlayer
    exact Nat.le_trans (stop_le_length_overlayAll first hlayer) hlength
  · intro i b htop
    rw [hsame i b htop, getElem?_overlayAll_of_some htop]

/-! ## Layers in another order -/

/-- The layers of the two groups share no position. -/
def Apart (first second : List Layer) : Prop :=
  ∀ i, top? first i = none ∨ top? second i = none

lemma Apart.symm {first second : List Layer} (h : Apart first second) : Apart second first :=
  fun i => (h i).symm

/-- Groups that share no position show the same bytes in any order. -/
lemma top?_flatMap_of_perm {α : Type} {groups : α → List Layer} {xs ys : List α} (h : xs.Perm ys)
    (hapart : xs.Pairwise fun x y => Apart (groups x) (groups y)) (i : Nat) :
    top? (xs.flatMap groups) i = top? (ys.flatMap groups) i := by
  induction h with
  | nil => rfl
  | cons x _ ih =>
    rw [List.flatMap_cons, List.flatMap_cons, top?_append, top?_append,
      ih (List.pairwise_cons.1 hapart).2]
  | swap x y xs =>
    have hpair : Apart (groups y) (groups x) :=
      (List.pairwise_cons.1 hapart).1 x List.mem_cons_self
    simp only [List.flatMap_cons, top?_append, Option.or_assoc]
    congr 1
    rcases hpair i with hnone | hnone
    · rw [hnone, Option.or_none, Option.none_or]
    · rw [hnone, Option.or_none, Option.none_or]
  | trans hxy _ ih₁ ih₂ =>
    rw [ih₁ hapart, ih₂ ((hxy.pairwise_iff Apart.symm).1 hapart)]

/-- **Groups of layers that do not meet** make the same of a content in any order. -/
theorem overlayAll_of_perm {α : Type} {groups : α → List Layer} {xs ys : List α} (h : xs.Perm ys)
    (hapart : xs.Pairwise fun x y => Apart (groups x) (groups y)) (content : Bytes) :
    overlayAll content (xs.flatMap groups) = overlayAll content (ys.flatMap groups) := by
  refine overlayAll_congr ?_ (top?_flatMap_of_perm h hapart) content
  intro m
  have hmem (layer : Layer) : layer ∈ xs.flatMap groups ↔ layer ∈ ys.flatMap groups :=
    (h.flatMap_right groups).mem_iff
  simp only [hmem]

/-! ## Layers that hold parts of one content -/

/-- The layer holds the bytes that the content has where the layer lies. -/
def Layer.IsPartOf (layer : Layer) (full : Bytes) : Prop :=
  layer.position + layer.data.length ≤ full.length ∧
    layer.data = full.slice layer.position layer.data.length

lemma Layer.IsPartOf.eq_getElem? {layer : Layer} {full : Bytes} (h : layer.IsPartOf full) {i : Nat}
    {b : UInt8} (hget : layer.get? i = some b) : full[i]? = some b := by
  simp only [get?] at hget
  split at hget
  · rename_i hle
    rw [h.2, getElem?_slice] at hget
    split at hget
    · rwa [Nat.add_sub_cancel' hle] at hget
    · cases hget
  · cases hget

lemma Layer.IsPartOf.stop_le {layer : Layer} {full : Bytes} (h : layer.IsPartOf full) :
    layer.stop ≤ full.length := by
  rw [stop]
  split
  · exact Nat.zero_le _
  · exact h.1

/-- **Layers that hold parts of a content** make it of every other one that is no longer and has
the same bytes where no layer lies. -/
theorem overlayAll_eq_of_parts {skeleton full : Bytes} {layers : List Layer}
    (hlength : skeleton.length ≤ full.length) (hparts : ∀ layer ∈ layers, layer.IsPartOf full)
    (hrest : ∀ i < full.length, top? layers i = none → skeleton[i]? = full[i]?) :
    overlayAll skeleton layers = full := by
  have hle : (overlayAll skeleton layers).length ≤ full.length :=
    length_overlayAll_le_iff.2 ⟨hlength, fun layer hlayer => (hparts layer hlayer).stop_le⟩
  have hsame : ∀ i < full.length, (overlayAll skeleton layers)[i]? = full[i]? := by
    intro i hi
    cases htop : top? layers i with
    | some b =>
      obtain ⟨layer, hlayer, hget⟩ := exists_of_top?_eq_some htop
      rw [getElem?_overlayAll_of_some htop, (hparts layer hlayer).eq_getElem? hget]
    | none =>
      have hskeleton := hrest i hi htop
      have hin : i < skeleton.length := by
        rw [List.getElem?_eq_getElem hi] at hskeleton
        exact (List.getElem?_eq_some_iff.1 hskeleton).1
      rw [getElem?_overlayAll_of_none hin htop, hskeleton]
  apply List.ext_getElem?
  intro i
  by_cases hi : i < full.length
  · exact hsame i hi
  · rw [List.getElem?_eq_none (by omega), List.getElem?_eq_none (by omega)]

end CoreSplice.Bytes
