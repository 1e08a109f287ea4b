import Mathlib.Logic.Relation
import TurboBench.Files.Path
import TurboBench.Proofs.Text.Words

/-!
# Lexical normal forms

What stands between the slashes of a name are its components. Some of them say nothing about where
the name leads: an empty component and a single dot can be left out, a double dot goes together
with the name in front of it, and at the root it can be left out as well. `Cancels` has these rules
and no order in which they are to be used.

Whichever is used first, a row of components comes to one normal form only, and it comes to one:
the place that is reached when the components are followed one by one (`normalises_iff`). Each rule
keeps this place (`ofComponents_of_cancels`), and a row without dots is the place itself.
-/

set_option autoImplicit false

namespace TurboBench.Files

open TurboBench.Text (pieces)
open TurboBench.Files.Path (isStep)

/-- The components of a text, empty ones and dots included. -/
def components (text : String) : List String :=
  (pieces (· == '/') text.toList).map String.ofList

/-- One component, or a name with the double dot behind it, is left out. -/
inductive Cancels : List String → List String → Prop
  | idle (before after : List String) {c : String} (hc : isStep c = false) :
      Cancels (before ++ c :: after) (before ++ after)
  | back (before after : List String) {c : String} (hc : isStep c = true) (hne : c ≠ "..") :
      Cancels (before ++ c :: ".." :: after) (before ++ after)
  | root (after : List String) : Cancels (".." :: after) after

/-- A location that holds neither dots nor an empty name. -/
def Location.IsPlain (l : Location) : Prop :=
  ∀ name ∈ l, isStep name = true ∧ name ≠ ".."

instance (l : Location) : Decidable l.IsPlain :=
  inferInstanceAs (Decidable (∀ name ∈ l, isStep name = true ∧ name ≠ ".."))

/-- The normal form of a row of components. -/
structure Normalises (cs : List String) (l : Location) : Prop where
  cancels : Relation.ReflTransGen Cancels cs l
  isPlain : l.IsPlain

namespace Location

variable {here l : Location} {cs : List String}

theorem follow_of_ne {name : String} (h : name ≠ "..") (here : Location) :
    here.follow name = here ++ [name] :=
  if_neg h

theorem follow_back (here : Location) : here.follow ".." = here.dropLast :=
  if_pos rfl

theorem isPlain_nil : IsPlain [] :=
  fun _ h => nomatch h

theorem IsPlain.append (hl : here.IsPlain) {name : String} (hstep : isStep name = true)
    (hne : name ≠ "..") : IsPlain (here ++ [name]) :=
  List.forall_mem_append.2 ⟨hl, List.forall_mem_singleton.2 ⟨hstep, hne⟩⟩

theorem IsPlain.dropLast (h : l.IsPlain) : IsPlain l.dropLast :=
  fun name hname => h name (List.dropLast_subset l hname)

/-- A plain location leads to itself. -/
theorem IsPlain.foldl_follow (h : l.IsPlain) (here : Location) :
    l.foldl follow here = here ++ l := by
  induction l generalizing here with
  | nil => exact (List.append_nil here).symm
  | cons name l ih =>
    obtain ⟨hname, hl⟩ := List.forall_mem_cons.1 h
    rw [List.foldl_cons, follow_of_ne hname.2, ih hl, List.append_assoc, List.singleton_append]

theorem IsPlain.filter_isStep (h : l.IsPlain) : l.filter isStep = l :=
  List.filter_eq_self.2 fun name hname => (h name hname).1

/-- Following steps from a plain location leads to a plain one. -/
theorem isPlain_foldl_follow (hhere : here.IsPlain) (hcs : ∀ c ∈ cs, isStep c = true) :
    IsPlain (cs.foldl follow here) := by
  induction cs generalizing here with
  | nil => exact hhere
  | cons c cs ih =>
    obtain ⟨hc, hcs⟩ := List.forall_mem_cons.1 hcs
    rw [List.foldl_cons]
    by_cases hback : c = ".."
    · rw [hback, follow_back]
      exact ih hhere.dropLast hcs
    · rw [follow_of_ne hback]
      exact ih (hhere.append hc hback) hcs

/-- Where a row of components leads from the root. -/
def ofComponents (cs : List String) : Location :=
  (cs.filter isStep).foldl follow []

theorem ofComponents_append (cs ds : List String) :
    ofComponents (cs ++ ds) = (ds.filter isStep).foldl follow (ofComponents cs) := by
  unfold ofComponents
  rw [List.filter_append, List.foldl_append]

theorem isPlain_ofComponents (cs : List String) : IsPlain (ofComponents cs) :=
  isPlain_foldl_follow isPlain_nil fun _ hc => (List.mem_filter.1 hc).2

/-- A plain location is where it leads. -/
theorem IsPlain.ofComponents (h : l.IsPlain) : Location.ofComponents l = l := by
  rw [Location.ofComponents, h.filter_isStep, h.foldl_follow, List.nil_append]

end Location

open Location (follow ofComponents)

/-- **No rule changes where the components lead.** -/
theorem ofComponents_of_cancels {cs ds : List String} (h : Cancels cs ds) :
    ofComponents ds = ofComponents cs := by
  have hstep : isStep ".." = true := by decide
  unfold ofComponents
  cases h with
  | idle before after hc =>
    rw [List.filter_append, List.filter_append,
      List.filter_cons_of_neg (by rw [hc]; exact Bool.false_ne_true)]
  | @back before after c hc hne =>
    rw [List.filter_append, List.filter_append, List.filter_cons_of_pos hc,
      List.filter_cons_of_pos hstep, List.foldl_append, List.foldl_append, List.foldl_cons,
      List.foldl_cons, Location.follow_of_ne hne, Location.follow_back, List.dropLast_concat]
  | root after =>
    rw [List.filter_cons_of_pos hstep, List.foldl_cons, Location.follow_back, List.dropLast_nil]

/-- What says nothing can be left out everywhere. -/
theorem cancels_filter (before cs : List String) :
    Relation.ReflTransGen Cancels (before ++ cs) (before ++ cs.filter isStep) := by
  induction cs generalizing before with
  | nil => exact .refl
  | cons c cs ih =>
    cases hc : isStep c with
    | true =>
      rw [List.filter_cons_of_pos hc, List.append_cons before c cs,
        List.append_cons before c (cs.filter isStep)]
      exact ih (before ++ [c])
    | false =>
      rw [List.filter_cons_of_neg (by rw [hc]; exact Bool.false_ne_true)]
      exact .head (.idle before cs hc) (ih before)

/-- Steps cancel out against the plain location that they are followed from. -/
theorem cancels_foldl {here : Location} {cs : List String} (hhere : here.IsPlain)
    (hcs : ∀ c ∈ cs, isStep c = true) :
    Relation.ReflTransGen Cancels (here ++ cs) (cs.foldl follow here) := by
  induction cs generalizing here with
  | nil =>
    rw [List.append_nil]
    exact .refl
  | cons c cs ih =>
    obtain ⟨hc, hsteps⟩ := List.forall_mem_cons.1 hcs
    rw [List.foldl_cons]
    by_cases hback : c = ".."
    · rw [hback, Location.follow_back]
      rcases List.eq_nil_or_concat here with hnil | ⟨above, name, hlast⟩
      · rw [hnil, List.dropLast_nil]
        exact .head (.root cs) (ih Location.isPlain_nil hsteps)
      · rw [List.concat_eq_append] at hlast
        rw [hlast] at hhere ⊢
        obtain ⟨habove, hname⟩ := List.forall_mem_append.1 hhere
        obtain ⟨hstep, hne⟩ := List.forall_mem_singleton.1 hname
        rw [List.dropLast_concat, List.append_assoc, List.singleton_append]
        exact .head (.back above cs hstep hne) (ih habove hsteps)
    · rw [Location.follow_of_ne hback, List.append_cons]
      exact ih (hhere.append hc hback) hsteps

/-- **There is one normal form**, and it is where the components lead from the root. -/
theorem normalises_iff {cs : List String} {l : Location} :
    Normalises cs l ↔ l = ofComponents cs := by
  constructor
  · rintro ⟨hcancels, hplain⟩
    have hsame : ofComponents l = ofComponents cs := by
      clear hplain
      induction hcancels with
      | refl => rfl
      | tail _ h ih => exact (ofComponents_of_cancels h).trans ih
    rw [← hsame, hplain.ofComponents]
  · rintro rfl
    refine ⟨?_, Location.isPlain_ofComponents cs⟩
    exact (cancels_filter [] cs).trans
      (cancels_foldl Location.isPlain_nil fun _ hc => (List.mem_filter.1 hc).2)

/-! ## Paths that are read -/

namespace Path

theorem steps_ofString (s : String) : (ofString s).steps = (components s).filter isStep := rfl

/-- A slash in front makes a path start at the root. -/
theorem isAbsolute_ofString (s : String) :
    (ofString s).isAbsolute = true ↔ s.toList.head? = some '/' := by
  unfold isAbsolute ofString
  generalize s.toList = cs
  unfold anchorOf
  split
  · simp
  · simp
  · simp
  · rename_i hnot
    cases cs with
    | nil => simp
    | cons c cs =>
      have hc : c ≠ '/' := fun hc => hnot cs (hc ▸ rfl)
      simp [hc]

/-- A character that is not in a text is in no step of its path. -/
theorem hasNul_ofString {s : String} (h : '\x00' ∉ s.toList) : (ofString s).hasNul = false := by
  unfold hasNul
  rw [List.any_eq_false]
  intro step hstep
  obtain ⟨w, hw, rfl⟩ := List.mem_map.1 (List.mem_filter.1 hstep).1
  rw [String.contains_char_eq, String.toList_ofList, decide_eq_true_iff]
  exact fun hnul => h (Text.mem_of_mem_pieces hw hnul)

/-- A character that is in a text is in a step of its path. -/
theorem hasNul_of_mem {s : String} (h : '\x00' ∈ s.toList) : (ofString s).hasNul = true := by
  obtain ⟨w, hw, hnul⟩ := Text.exists_mem_pieces (p := (· == '/')) h (by decide)
  have hmem : '\x00' ∈ (String.ofList w).toList := by rwa [String.toList_ofList]
  have hstep : isStep (String.ofList w) = true := by
    rw [isStep, Bool.and_eq_true, bne_iff_ne, bne_iff_ne]
    constructor
    · intro hw
      rw [hw] at hmem
      exact absurd hmem (by decide)
    · intro hw
      rw [hw] at hmem
      exact absurd hmem (by decide)
  refine List.any_eq_true.2 ⟨_, List.mem_filter.2 ⟨List.mem_map_of_mem hw, hstep⟩, ?_⟩
  rwa [String.contains_char_eq, decide_eq_true_iff]

/-- The path to a plain location leads there. -/
theorem location_ofLocation {l : Location} (h : l.IsPlain) (folder : Location) :
    (ofLocation l).location folder = l :=
  h.foldl_follow []

end Path

end TurboBench.Files
