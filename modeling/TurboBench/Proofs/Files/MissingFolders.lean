import Mathlib.Data.List.Induction
import TurboBench.Proofs.Files.Frames

/-!
# The folders that are missing

A folder is made together with the folders that are missing above it, from the root down, as far as
that is possible: a file may stand in the way, or a name may be too long, and what was made above it
stays. So one can say beforehand what will be made on the way down to a location (`IsMissing`) and
whether one will get there (`IsFree`), and that is what making folders does (`makes_makeFolders`).

The first folder that is missing is found from below: making a folder fails with one cause as long
as a folder above it is missing as well, and with other causes where it is not worth trying further
up (`makeFolder_cases`). So the calls that making folders takes inside each other are as many as
folders are missing above the location (`lt_ascent_iff`).
-/

set_option autoImplicit false

namespace TurboBench.Files

/-! ## The length of a path -/

/-- The path to a location is not too long to be followed. -/
def Location.IsShort (l : Location) : Prop :=
  (Path.ofLocation l).text.utf8ByteSize < pathLimit

instance (l : Location) : Decidable l.IsShort :=
  inferInstanceAs (Decidable (_ < _))

theorem Path.text_ofLocation (l : Location) : (ofLocation l).text = "/" ++ "/".intercalate l := rfl

/-- The path to a folder is shorter than the path to what lies in it. -/
theorem Location.IsShort.of_append {l : Location} {name : String} (h : IsShort (l ++ [name])) :
    l.IsShort := by
  unfold IsShort at h ⊢
  rw [Path.text_ofLocation, String.utf8ByteSize_append] at h ⊢
  by_cases hl : l = []
  · rw [hl, String.intercalate_nil, String.utf8ByteSize_empty]
    omega
  · rw [String.intercalate_append_of_ne_nil hl (List.cons_ne_nil name []),
      String.utf8ByteSize_append, String.utf8ByteSize_append] at h
    omega

namespace FileTree

/-! ## Trees -/

/-- Whatever stands in a tree stands in a folder. -/
def IsTree (t : FileTree) : Prop :=
  ∀ l name e, t.find? (l ++ [name]) = some e → t.find? l = some .folder

section Trees

variable {t : FileTree} {l m : Location} {name : String}

/-- It is enough that the entries stand in folders. -/
theorem isTree_of_entries (h : ∀ entry ∈ t.entries, t.find? entry.1.dropLast = some .folder) :
    t.IsTree := by
  intro l name e hfind
  have hne := List.append_ne_nil_of_right_ne_nil l (List.cons_ne_nil name [])
  have hfolder := h _ (mem_entries_of_find? hne hfind)
  rwa [List.dropLast_concat] at hfolder

/-- Above what stands in a tree there are folders. -/
theorem IsTree.folder_of_isPrefix (ht : t.IsTree) {e : Entry} (hl : t.find? l = some e)
    (hm : m <+: l) (hne : m ≠ l) : t.find? m = some .folder := by
  obtain ⟨rest, rfl⟩ := hm
  induction rest using List.reverseRecOn generalizing e with
  | nil => exact absurd (List.append_nil m).symm hne
  | append_singleton rest name ih =>
    rw [← List.append_assoc] at hl
    have habove := ht (m ++ rest) name e hl
    by_cases hrest : rest = []
    · rwa [hrest, List.append_nil] at habove
    · exact ih habove fun heq => hrest (List.append_right_eq_self.1 heq.symm)

/-- Below what is missing there is nothing. -/
theorem IsTree.missing_of_isPrefix (ht : t.IsTree) (hm : t.find? m = none) (hbelow : m <+: l) :
    t.find? l = none := by
  by_cases hsame : m = l
  · rwa [← hsame]
  · cases hl : t.find? l with
    | none => rfl
    | some e =>
      rw [ht.folder_of_isPrefix hl hbelow hsame] at hm
      exact nomatch hm

/-! ## The way to a location -/

theorem concat_isPrefix_append_cons (above : Location) (name : String) (rest : List String) :
    above ++ [name] <+: above ++ name :: rest :=
  (List.prefix_append_right_inj above).2 (List.prefix_append [name] rest)

/-- All above a location are folders, and its names are not too long. -/
def Opens (t : FileTree) (l : Location) : Prop :=
  ∀ above name, above ++ [name] <+: l →
    t.find? above = some .folder ∧ name.utf8ByteSize ≤ nameLimit

/-- Why one does not get from a location to a name in it. -/
inductive Stops (t : FileTree) (above : Location) (name : String) : Cause → Prop
  | missing (h : t.find? above = none) : Stops t above name .missing
  | notFolder {f : File} (h : t.find? above = some (.file f)) : Stops t above name .notFolder
  | nameTooLong (h : t.find? above = some .folder) (hname : nameLimit < name.utf8ByteSize) :
      Stops t above name .nameTooLong

theorem opens_root (t : FileTree) : t.Opens [] := by
  intro above name h
  exact absurd (List.prefix_nil.1 h)
    (List.append_ne_nil_of_right_ne_nil above (List.cons_ne_nil name []))

/-- A name in a folder that one gets to is got to as well, if it is not too long. -/
theorem Opens.append (h : t.Opens l) (hl : t.find? l = some .folder)
    (hname : name.utf8ByteSize ≤ nameLimit) : t.Opens (l ++ [name]) := by
  intro above last hbelow
  rcases List.prefix_concat_iff.1 hbelow with hsame | hbelow
  · obtain ⟨rfl, hlast⟩ := List.append_inj' hsame rfl
    obtain rfl := List.singleton_inj.1 hlast
    exact ⟨hl, hname⟩
  · exact h above last hbelow

/-- All above a location that one gets to are folders. -/
theorem Opens.folder_of_isPrefix (h : t.Opens l) (hm : m <+: l) (hne : m ≠ l) :
    t.find? m = some .folder := by
  obtain ⟨rest, rfl⟩ := hm
  cases rest with
  | nil => exact absurd (List.append_nil m).symm hne
  | cons name rest =>
    exact (h m name (concat_isPrefix_append_cons m name rest)).1

theorem Opens.names (h : t.Opens l) : ∀ name ∈ l, name.utf8ByteSize ≤ nameLimit := by
  intro name hname
  obtain ⟨above, rest, rfl⟩ := List.append_of_mem hname
  exact (h above name (concat_isPrefix_append_cons above name rest)).2

/-- One does not get behind the place that stops the way. -/
theorem Stops.not_opens {above : Location} {rest : List String} {c : Cause}
    (h : t.Stops above name c) : ¬ t.Opens (above ++ name :: rest) := by
  intro hopen
  obtain ⟨hfolder, hname⟩ := hopen above name (concat_isPrefix_append_cons above name rest)
  cases h with
  | missing hnone =>
    rw [hfolder] at hnone
    exact nomatch hnone
  | notFolder hfile =>
    rw [hfolder] at hfile
    exact nomatch hfile
  | nameTooLong _ hlong => exact absurd hlong (Nat.not_lt.2 hname)

/-- Where nothing stands, that is what stops the way. -/
theorem Stops.eq_missing {above : Location} {c : Cause} (h : t.Stops above name c)
    (hnone : t.find? above = none) : c = .missing := by
  cases h with
  | missing _ => rfl
  | notFolder hfile =>
    rw [hnone] at hfile
    exact nomatch hfile
  | nameTooLong hfolder _ =>
    rw [hnone] at hfolder
    exact nomatch hfolder

/-- Following a plain location gets there, or it is stopped somewhere above. -/
theorem walk_cases (hl : l.IsPlain) :
    (t.walk [] l = .ok l ∧ t.Opens l)
      ∨ ∃ above name rest c, l = above ++ name :: rest ∧ t.Opens above
        ∧ t.Stops above name c ∧ t.walk [] l = .error c := by
  -- The walk starts where it has got to so far.
  suffices hall : ∀ here : Location, t.Opens here →
      (t.walk here l = .ok (here ++ l) ∧ t.Opens (here ++ l))
        ∨ ∃ above name rest c, here ++ l = above ++ name :: rest ∧ t.Opens above
          ∧ t.Stops above name c ∧ t.walk here l = .error c from hall [] (opens_root t)
  induction l with
  | nil =>
    intro here hhere
    rw [List.append_nil, walk]
    exact .inl ⟨rfl, hhere⟩
  | cons name l ih =>
    intro here hhere
    obtain ⟨hname, hl⟩ := List.forall_mem_cons.1 hl
    unfold walk
    cases hfind : t.find? here with
    | none => exact .inr ⟨here, name, l, .missing, rfl, hhere, .missing hfind, rfl⟩
    | some e =>
      cases e with
      | file f => exact .inr ⟨here, name, l, .notFolder, rfl, hhere, .notFolder hfind, rfl⟩
      | folder =>
        simp only
        split
        · rename_i hlong
          exact .inr ⟨here, name, l, .nameTooLong, rfl, hhere, .nameTooLong hfind hlong, rfl⟩
        · rename_i hshort
          rw [Location.follow_of_ne hname.2, List.append_cons here name l]
          exact ih hl (here ++ [name]) (hhere.append hfind (Nat.not_lt.1 hshort))

/-- One gets to a location if all above it are folders. -/
theorem walk_of_opens (hl : l.IsPlain) (h : t.Opens l) : t.walk [] l = .ok l := by
  rcases walk_cases (t := t) hl with ⟨hwalk, -⟩ | ⟨above, name, rest, c, rfl, -, hstops, -⟩
  · exact hwalk
  · exact absurd h hstops.not_opens

/-! ## What is made -/

/-- Folders can be made down to a location: no name is too long, and no file stands in the way. -/
structure IsFree (t : FileTree) (l : Location) : Prop where
  names : ∀ name ∈ l, name.utf8ByteSize ≤ nameLimit
  files : ∀ above, above <+: l → ∀ f, t.find? above ≠ some (.file f)

/-- On the way down to a location nothing stands at another one, and a folder can be made there. -/
structure IsMissing (t : FileTree) (l m : Location) : Prop where
  isPrefix : m <+: l
  missing : t.find? m = none
  isFree : t.IsFree m

theorem IsFree.of_isPrefix (h : t.IsFree l) (hm : m <+: l) : t.IsFree m where
  names name hname := h.names name (hm.subset hname)
  files above habove := h.files above (habove.trans hm)

/-- Where nothing is missing above a location, only the location itself can be. -/
theorem Opens.eq_of_isMissing (h : t.Opens l) (hm : t.IsMissing l m) : m = l := by
  by_contra hne
  have hfolder := h.folder_of_isPrefix hm.isPrefix hne
  rw [hm.missing] at hfolder
  exact nomatch hfolder

/-- Where one gets to a location that is no file, nothing is in the way. -/
theorem Opens.isFree (h : t.Opens l) (hl : ∀ f, t.find? l ≠ some (.file f)) : t.IsFree l where
  names := h.names
  files above habove f hfile := by
    by_cases hsame : above = l
    · exact hl f (hsame ▸ hfile)
    · rw [h.folder_of_isPrefix habove hsame] at hfile
      exact nomatch hfile

/-- What stops one other than a missing folder keeps folders from being made. -/
theorem Stops.not_isFree {above : Location} {rest : List String} {c : Cause}
    (h : t.Stops above name c) (hc : c ≠ .missing) : ¬ t.IsFree (above ++ name :: rest) := by
  intro hfree
  cases h with
  | missing _ => exact hc rfl
  | notFolder hfile => exact hfree.files above (List.prefix_append above (name :: rest)) _ hfile
  | nameTooLong _ hlong =>
    refine absurd (hfree.names name ?_) (Nat.not_le.2 hlong)
    exact List.mem_append_right above List.mem_cons_self

/-- It also keeps them from being missing further down, since nothing is missing further up. -/
theorem Stops.not_isMissing {above : Location} {rest : List String} {c : Cause}
    (h : t.Stops above name c) (hc : c ≠ .missing) (hopen : t.Opens above) (m : Location) :
    ¬ t.IsMissing (above ++ name :: rest) m := by
  intro hm
  -- What stops the way down is something that is there.
  have hthere : t.find? above ≠ none := fun hnone => hc (h.eq_missing hnone)
  have hmany := hm.missing
  rcases List.prefix_or_prefix_of_prefix hm.isPrefix (List.prefix_append above (name :: rest)) with
    hover | hunder
  · by_cases hsame : m = above
    · exact hthere (hsame ▸ hmany)
    · rw [hopen.folder_of_isPrefix hover hsame] at hmany
      exact nomatch hmany
  · obtain ⟨below, rfl⟩ := hunder
    cases below with
    | nil => exact hthere (by rwa [List.append_nil] at hmany)
    | cons first below =>
      obtain ⟨rfl, -⟩ := List.cons_prefix_cons.1
        ((List.prefix_append_right_inj above).1 hm.isPrefix)
      exact h.not_isFree hc hm.isFree

variable {working : Location}

theorem locate_ofLocation (hshort : l.IsShort) :
    t.locate working (.ofLocation l) = t.walk [] l :=
  if_neg (Nat.not_le.2 hshort)

theorem makeFolder_of_walk_error {c : Cause} (hshort : l.IsShort)
    (h : t.walk [] l = .error c) : t.makeFolder working (.ofLocation l) = .error c := by
  simp only [makeFolder, locate_ofLocation hshort, h]

theorem entry_of_walk_error {c : Cause} (hshort : l.IsShort)
    (h : t.walk [] l = .error c) : t.entry working (.ofLocation l) = .error c := by
  simp only [entry, locate_ofLocation hshort, h]

theorem entry_of_opens (hl : l.IsPlain) (hshort : l.IsShort) (hopen : t.Opens l) {e : Entry}
    (h : t.find? l = some e) : t.entry working (.ofLocation l) = .ok e := by
  simp only [entry, locate_ofLocation hshort, walk_of_opens hl hopen, h]

/-- **The three ways of making one folder**: it is made; a folder above it is missing; or there is
nothing to make on the way down to it, and it depends on what is there whether this is a fault. -/
theorem makeFolder_cases (t : FileTree) (working : Location) (hl : l.IsPlain)
    (hshort : l.IsShort) :
    (t.makeFolder working (.ofLocation l) = .ok (t.put l .folder) ∧ t.Opens l ∧ t.find? l = none)
      ∨ (t.makeFolder working (.ofLocation l) = .error .missing
          ∧ ∃ above, above <+: l ∧ above ≠ l ∧ t.Opens above ∧ t.find? above = none)
      ∨ (∃ c, c ≠ .missing ∧ t.makeFolder working (.ofLocation l) = .error c
          ∧ (∀ m, ¬ t.IsMissing l m)
          ∧ (t.settle working (.ofLocation l) c = none ↔ t.IsFree l)) := by
  -- The way down either leads to the place, and then it depends on what stands there, or stops
  -- above it.
  rcases walk_cases (t := t) hl with
    ⟨hwalk, hopen⟩ | ⟨above, name, rest, c, rfl, hopen, hstops, hwalk⟩
  · cases hfind : t.find? l with
    | none =>
      refine .inl ⟨?_, hopen, rfl⟩
      simp only [makeFolder, locate_ofLocation hshort, hwalk, hfind]
    | some e =>
      refine .inr (.inr ⟨.exists_, Cause.noConfusion, ?_, fun m hm => ?_, ?_⟩)
      · simp only [makeFolder, locate_ofLocation hshort, hwalk, hfind]
      · have hmissing := hm.missing
        rw [hopen.eq_of_isMissing hm, hfind] at hmissing
        exact nomatch hmissing
      · simp only [settle, isFolder, ask, entry_of_opens hl hshort hopen hfind]
        cases e with
        | file f =>
          simp only [reduceCtorEq, false_iff]
          exact fun hfree => hfree.files l List.prefix_rfl f hfind
        | folder =>
          simp only [true_iff]
          exact hopen.isFree fun f hfile => by simp [hfind] at hfile
  · by_cases hc : c = .missing
    · subst hc
      cases hstops with
      | missing hnone =>
        refine .inr (.inl ⟨makeFolder_of_walk_error hshort hwalk, above, ?_, ?_, hopen, hnone⟩)
        · exact List.prefix_append above (name :: rest)
        · exact fun hsame => List.cons_ne_nil name rest (List.append_right_eq_self.1 hsame.symm)
    · refine .inr (.inr ⟨c, hc, makeFolder_of_walk_error hshort hwalk,
        hstops.not_isMissing hc hopen, ?_⟩)
      refine iff_of_false ?_ (hstops.not_isFree hc)
      simp only [settle, isFolder, ask, entry_of_walk_error hshort hwalk]
      cases c <;> simp

/-! ## Making folders -/

/-- What making folders down to a location comes to: the folders that were missing are made and all
else is kept, and there is no fault if and only if one got there. -/
structure Makes (t : FileTree) (l : Location) (u : FileTree) (fault : Option Fault) : Prop where
  made : ∀ m, t.IsMissing l m → u.find? m = some .folder
  kept : ∀ m, ¬ t.IsMissing l m → u.find? m = t.find? m
  fault : fault = none ↔ t.IsFree l
  unchanged : (∀ m, ¬ t.IsMissing l m) → u = t

variable {u : FileTree} {fault : Option Fault}

/-- No file is made, and none is lost. -/
theorem Makes.file_iff (h : t.Makes l u fault) (m : Location) (f : File) :
    u.find? m = some (.file f) ↔ t.find? m = some (.file f) := by
  by_cases hmissing : t.IsMissing l m
  · rw [h.made m hmissing, hmissing.missing]
    simp
  · rw [h.kept m hmissing]

/-- So the way to a location is as free as it was. -/
theorem Makes.isFree_iff (h : t.Makes l u fault) (m : Location) : u.IsFree m ↔ t.IsFree m := by
  constructor
  · exact fun hfree => ⟨hfree.names, fun above habove f hf =>
      hfree.files above habove f ((h.file_iff above f).2 hf)⟩
  · exact fun hfree => ⟨hfree.names, fun above habove f hf =>
      hfree.files above habove f ((h.file_iff above f).1 hf)⟩

/-- Where no fault is met, nothing is missing any more. -/
theorem Makes.ne_none (h : t.Makes l u none) (hm : m <+: l) : u.find? m ≠ none := by
  intro hnone
  by_cases hmissing : t.IsMissing l m
  · rw [h.made m hmissing] at hnone
    exact nomatch hnone
  · refine hmissing ⟨hm, ?_, (h.fault.1 rfl).of_isPrefix hm⟩
    rwa [← h.kept m hmissing]

/-- Where only the folder itself is missing, making it makes all that is missing. -/
theorem makes_put (hopen : t.Opens l) (hl : t.find? l = none) :
    t.Makes l (t.put l .folder) none := by
  have hfree : t.IsFree l := hopen.isFree fun f hfile => by simp [hl] at hfile
  have hmissing : t.IsMissing l l := ⟨List.prefix_rfl, hl, hfree⟩
  refine ⟨fun m hm => ?_, fun m hm => ?_, iff_of_true rfl hfree, fun h => absurd hmissing (h l)⟩
  · rw [hopen.eq_of_isMissing hm]
    refine find?_put_self t ?_ _
    rintro rfl
    rw [find?_root] at hl
    exact nomatch hl
  · refine find?_put_of_ne t ?_ _
    rintro rfl
    exact hm hmissing

theorem makes_self (hm : ∀ m, ¬ t.IsMissing l m) (hfault : fault = none ↔ t.IsFree l) :
    t.Makes l t fault :=
  ⟨fun m h => absurd h (hm m), fun _ _ => rfl, hfault, fun _ => rfl⟩

/-- What is missing on the way to a name is what is missing on the way to the folder above it, or
the name itself. -/
theorem isMissing_append_iff (hne : m ≠ l ++ [name]) :
    t.IsMissing (l ++ [name]) m ↔ t.IsMissing l m := by
  constructor
  · intro h
    exact ⟨(List.prefix_concat_iff.1 h.isPrefix).resolve_left hne, h.missing, h.isFree⟩
  · intro h
    exact ⟨h.isPrefix.trans (List.prefix_append l [name]), h.missing, h.isFree⟩

/-- A location is as it was if only what is above it was made. -/
theorem Makes.find?_append (h : t.Makes l u fault) (name : String) :
    u.find? (l ++ [name]) = t.find? (l ++ [name]) := by
  refine h.kept _ fun hmissing => ?_
  have := hmissing.isPrefix.length_le
  rw [List.length_append, List.length_singleton] at this
  omega

/-- A fault further up is the end of it. -/
theorem Makes.append_of_fault {f : Fault} (h : t.Makes l u (some f)) (name : String) :
    t.Makes (l ++ [name]) u (some f) := by
  have hfree : ¬ t.IsFree l := fun hfree => nomatch h.fault.2 hfree
  have hnot : ¬ t.IsFree (l ++ [name]) :=
    fun hfree' => hfree (hfree'.of_isPrefix (List.prefix_append l [name]))
  have hsame (m : Location) : t.IsMissing (l ++ [name]) m ↔ t.IsMissing l m := by
    by_cases hm : m = l ++ [name]
    · refine iff_of_false (fun h' => hnot (hm ▸ h'.isFree)) fun h' => hfree ?_
      exact h'.isFree.of_isPrefix (hm ▸ List.prefix_append l [name])
    · exact isMissing_append_iff hm
  refine ⟨fun m hm => h.made m ((hsame m).1 hm), fun m hm => h.kept m (mt (hsame m).2 hm),
    iff_of_false (fun hf => nomatch hf) hnot, fun hm => h.unchanged fun m => ?_⟩
  exact mt (hsame m).2 (hm m)

/-- After the folders above it, the folder itself is all that can be missing. -/
theorem Makes.append {v : FileTree} (h : t.Makes l u none) (hl : t.find? (l ++ [name]) = none)
    (hlast : u.Makes (l ++ [name]) v fault) : t.Makes (l ++ [name]) v fault := by
  have hu : u.find? (l ++ [name]) = none := (h.find?_append name).trans hl
  -- The tree between differs from `t` in the folders above the place alone, so of the place nothing
  -- has changed.
  have hmissing (m : Location) :
      u.IsMissing (l ++ [name]) m ↔ m = l ++ [name] ∧ t.IsFree (l ++ [name]) := by
    constructor
    · intro hm
      have hsame : m = l ++ [name] := by
        by_contra hne
        exact h.ne_none ((isMissing_append_iff hne).1 hm).isPrefix hm.missing
      exact ⟨hsame, (h.isFree_iff _).1 (hsame ▸ hm.isFree)⟩
    · rintro ⟨rfl, hfree⟩
      exact ⟨List.prefix_rfl, hu, (h.isFree_iff _).2 hfree⟩
  have hself (hfree : t.IsFree (l ++ [name])) : t.IsMissing (l ++ [name]) (l ++ [name]) :=
    ⟨List.prefix_rfl, hl, hfree⟩
  refine ⟨fun m hm => ?_, fun m hm => ?_, hlast.fault.trans (h.isFree_iff _), fun hm => ?_⟩
  · by_cases hsame : m = l ++ [name]
    · exact hlast.made m ((hmissing m).2 ⟨hsame, hsame ▸ hm.isFree⟩)
    · rw [hlast.kept m (mt (hmissing m).1 fun hlater => hsame hlater.1)]
      exact h.made m ((isMissing_append_iff hsame).1 hm)
  · have hnot : ¬ u.IsMissing (l ++ [name]) m := by
      intro hlater
      obtain ⟨rfl, hfree⟩ := (hmissing m).1 hlater
      exact hm (hself hfree)
    rw [hlast.kept m hnot]
    by_cases hsame : m = l ++ [name]
    · rw [hsame, h.find?_append name]
    · exact h.kept m (mt (isMissing_append_iff hsame).2 hm)
  · have hnone (m : Location) : ¬ u.IsMissing (l ++ [name]) m := by
      intro hlater
      obtain ⟨rfl, hfree⟩ := (hmissing m).1 hlater
      exact hm _ (hself hfree)
    rw [hlast.unchanged hnone]
    refine h.unchanged fun m hm' => ?_
    exact hm m ⟨hm'.isPrefix.trans (List.prefix_append l [name]), hm'.missing, hm'.isFree⟩

/-- A folder that cannot be made for another one missing has a first missing folder above it. -/
theorem exists_missing_of_makeFolder (hl : l.IsPlain) (hshort : l.IsShort)
    (h : t.makeFolder working (.ofLocation l) = .error .missing) :
    ∃ above, above <+: l ∧ above ≠ l ∧ t.Opens above ∧ t.find? above = none := by
  rcases makeFolder_cases t working hl hshort with
    ⟨hmake, -⟩ | ⟨-, hexists⟩ | ⟨c, hc, hmake, -⟩
  · rw [hmake] at h
    exact nomatch h
  · exact hexists
  · rw [hmake] at h
    exact absurd (Except.error.inj h) hc

/-- If no folder is missing above a location, nothing else has to be tried. -/
theorem makes_of_not_missing (hl : l.IsPlain) (hshort : l.IsShort)
    (h : t.makeFolder working (.ofLocation l) ≠ .error .missing) :
    t.Makes l (t.makeFolders working (.ofLocation l)).1
      (t.makeFolders working (.ofLocation l)).2 := by
  rcases makeFolder_cases t working hl hshort with
    ⟨hmake, hopen, hnone⟩ | ⟨hmake, -⟩ | ⟨c, hc, hmake, hm, hfault⟩
  · rw [makeFolders, hmake]
    exact makes_put hopen hnone
  · exact absurd hmake h
  · rw [makeFolders, hmake]
    cases c with
    | missing => exact absurd rfl hc
    | exists_ => exact makes_self hm hfault
    | notFolder => exact makes_self hm hfault
    | isFolder => exact makes_self hm hfault
    | nameTooLong => exact makes_self hm hfault

/-- Once the folders above it are there, a folder is made as if nothing had been missing. -/
theorem makeFolders_of_missing {p : Path} (hsteps : p.steps ≠ [])
    (h : t.makeFolder working p = .error .missing)
    (habove : t.makeFolders working p.parent = (u, none))
    (hu : u.makeFolder working p ≠ .error .missing) :
    t.makeFolders working p = u.makeFolders working p := by
  rw [makeFolders, h]
  simp only [dif_neg hsteps, habove]
  rw [makeFolders]
  cases hmake : u.makeFolder working p with
  | ok v => rfl
  | error c =>
    cases c with
    | missing => exact absurd hmake hu
    | exists_ => rfl
    | notFolder => rfl
    | isFolder => rfl
    | nameTooLong => rfl

theorem makeFolders_of_fault {p : Path} {f : Fault} (hsteps : p.steps ≠ [])
    (h : t.makeFolder working p = .error .missing)
    (habove : t.makeFolders working p.parent = (u, some f)) :
    t.makeFolders working p = (u, some f) := by
  rw [makeFolders, h]
  simp only [dif_neg hsteps, habove]

/-- **Making folders makes just those that are missing**, and ends without a fault if and only if
nothing is in the way. -/
theorem makes_makeFolders (ht : t.IsTree) (hl : l.IsPlain) (hshort : l.IsShort) :
    t.Makes l (t.makeFolders working (.ofLocation l)).1
      (t.makeFolders working (.ofLocation l)).2 := by
  induction l using List.reverseRecOn with
  | nil =>
    refine makes_of_not_missing hl hshort fun hmake => ?_
    obtain ⟨above, habove, hne, -, -⟩ := exists_missing_of_makeFolder hl hshort hmake
    exact hne (List.prefix_nil.1 habove)
  | append_singleton l name ih =>
    by_cases hmake : t.makeFolder working (.ofLocation (l ++ [name])) = .error .missing
    · obtain ⟨above, habove, -, -, hnone⟩ := exists_missing_of_makeFolder hl hshort hmake
      have hlast : t.find? (l ++ [name]) = none := ht.missing_of_isPrefix hnone habove
      have hsteps : (Path.ofLocation (l ++ [name])).steps ≠ [] :=
        List.append_ne_nil_of_right_ne_nil l (List.cons_ne_nil name [])
      have hparent : (Path.ofLocation (l ++ [name])).parent = .ofLocation l :=
        congrArg (Path.mk .root) List.dropLast_concat
      have hmade := ih (fun n hn => hl n (List.mem_append_left _ hn)) hshort.of_append
      obtain ⟨u, fault, hfolders⟩ : ∃ u fault,
          t.makeFolders working (Path.ofLocation (l ++ [name])).parent = (u, fault) := ⟨_, _, rfl⟩
      rw [← hparent, hfolders] at hmade
      cases fault with
      | some f =>
        rw [makeFolders_of_fault hsteps hmake hfolders]
        exact hmade.append_of_fault name
      | none =>
        -- the folders above are all there by now
        have hnow : u.makeFolder working (.ofLocation (l ++ [name])) ≠ .error .missing := by
          intro hagain
          obtain ⟨above, habove, hne, -, hnone⟩ := exists_missing_of_makeFolder hl hshort hagain
          exact hmade.ne_none ((List.prefix_concat_iff.1 habove).resolve_left hne) hnone
        rw [makeFolders_of_missing hsteps hmake hfolders hnow]
        exact hmade.append hlast (makes_of_not_missing hl hshort hnow)
    · exact makes_of_not_missing hl hshort hmake

/-- Down to a location with too long a path no folder is made. -/
theorem makeFolders_of_not_isShort (hlong : ¬ l.IsShort) :
    (t.makeFolders working (.ofLocation l)).1 = t := by
  have hlocate : t.locate working (.ofLocation l) = .error .nameTooLong :=
    if_pos (Nat.not_lt.1 hlong)
  simp only [makeFolders, makeFolder, hlocate]

/-- The folders that making folders down to a location makes. -/
theorem find?_makeFolders (ht : t.IsTree) (hl : l.IsPlain) (hm : l.IsShort ∧ t.IsMissing l m) :
    (t.makeFolders working (.ofLocation l)).1.find? m = some .folder :=
  (makes_makeFolders ht hl hm.1).made m hm.2

/-- Nothing else changes. -/
theorem find?_makeFolders_of_not (ht : t.IsTree) (hl : l.IsPlain)
    (hm : ¬ (l.IsShort ∧ t.IsMissing l m)) :
    (t.makeFolders working (.ofLocation l)).1.find? m = t.find? m := by
  by_cases hshort : l.IsShort
  · exact (makes_makeFolders ht hl hshort).kept m fun hmissing => hm ⟨hshort, hmissing⟩
  · rw [makeFolders_of_not_isShort hshort]

theorem makeFolders_eq_self (ht : t.IsTree) (hl : l.IsPlain)
    (hm : ∀ m, ¬ (l.IsShort ∧ t.IsMissing l m)) :
    (t.makeFolders working (.ofLocation l)).1 = t := by
  by_cases hshort : l.IsShort
  · exact (makes_makeFolders ht hl hshort).unchanged fun m hmissing => hm m ⟨hshort, hmissing⟩
  · exact makeFolders_of_not_isShort hshort

/-! ## Files -/

/-- A file can be put at a location, once the folders above it have been made: no name on the way is
too long, nor the path as a whole, no file stands where a folder has to be, and no folder stands in
the place of the file. -/
structure Takes (t : FileTree) (l : Location) : Prop where
  isShort : l.IsShort
  names : ∀ name ∈ l, name.utf8ByteSize ≤ nameLimit
  files : ∀ above, above <+: l → above ≠ l → ∀ f, t.find? above ≠ some (.file f)
  folder : t.find? l ≠ some .folder

/-- Nothing is in the way of the folders above a file that can be put in its place. -/
theorem isFree_of_takes (h : t.Takes (l ++ [name])) : t.IsFree l where
  names n hn := h.names n (List.mem_append_left [name] hn)
  files above habove := by
    refine h.files above (habove.trans (List.prefix_append l [name])) ?_
    rintro rfl
    have := habove.length_le
    rw [List.length_append, List.length_singleton] at this
    omega

/-- Where the folders above have been made, all on the way to the file is a folder. -/
theorem Makes.opens_append (h : t.Makes l u none) (htakes : t.Takes (l ++ [name])) :
    u.Opens (l ++ [name]) := by
  intro above step habove
  have hstep : step ∈ l ++ [name] :=
    habove.subset (List.mem_append_right above (List.mem_singleton.2 rfl))
  have hunder : above <+: l := by
    rcases List.prefix_concat_iff.1 habove with hsame | hunder
    · exact (List.append_inj' hsame rfl).1 ▸ List.prefix_rfl
    · exact (List.prefix_append above [step]).trans hunder
  refine ⟨?_, htakes.names step hstep⟩
  cases hfind : u.find? above with
  | none => exact absurd hfind (h.ne_none hunder)
  | some e =>
    cases e with
    | folder => rfl
    | file f =>
      exact absurd ((h.file_iff above f).1 hfind) ((isFree_of_takes htakes).files above hunder f)

/-- A file can be written where one gets to and no folder is. -/
theorem write_of_opens (hl : l.IsPlain) (hshort : l.IsShort) (hopen : t.Opens l)
    (hfolder : t.find? l ≠ some .folder) (f : File) :
    t.write working (.ofLocation l) f = .ok (t.put l (.file f)) := by
  simp only [write, locate_ofLocation hshort, walk_of_opens hl hopen]

/-- **Making the folders above a file and writing it succeeds if and only if the file can be put
there.** -/
theorem takes_iff (ht : t.IsTree) (hl : Location.IsPlain (l ++ [name])) (f : File) :
    t.Takes (l ++ [name]) ↔ ∃ u v, t.makeFolders working (.ofLocation l) = (u, none)
      ∧ u.write working (.ofLocation (l ++ [name])) f = .ok v := by
  have hplain : l.IsPlain := fun step hstep => hl step (List.mem_append_left [name] hstep)
  constructor
  · intro htakes
    have hmakes : t.Makes l (t.makeFolders working (.ofLocation l)).1
        (t.makeFolders working (.ofLocation l)).2 :=
      makes_makeFolders ht hplain htakes.isShort.of_append
    have hdone := hmakes.fault.2 (isFree_of_takes htakes)
    rw [hdone] at hmakes
    have hfolder := htakes.folder
    rw [← hmakes.find?_append name] at hfolder
    exact ⟨_, _, Prod.ext rfl hdone,
      write_of_opens hl htakes.isShort (hmakes.opens_append htakes) hfolder f⟩
  · rintro ⟨u, v, hmade, hwrite⟩
    have hshort : Location.IsShort (l ++ [name]) := by
      by_contra hlong
      have hlocate : u.locate working (.ofLocation (l ++ [name])) = .error .nameTooLong :=
        if_pos (Nat.not_lt.1 hlong)
      rw [write, hlocate] at hwrite
      exact nomatch hwrite
    have hmakes : t.Makes l (t.makeFolders working (.ofLocation l)).1
        (t.makeFolders working (.ofLocation l)).2 := makes_makeFolders ht hplain hshort.of_append
    rw [hmade] at hmakes
    rw [write, locate_ofLocation hshort] at hwrite
    rcases walk_cases (t := u) hl with ⟨hwalk, hopen⟩ | ⟨_, _, _, _, -, -, -, hwalk⟩
    · refine ⟨hshort, hopen.names, fun above habove hne f hfile => ?_, fun hfolder => ?_⟩
      · rw [← hmakes.file_iff, hopen.folder_of_isPrefix habove hne] at hfile
        exact nomatch hfile
      · rw [← hmakes.find?_append name] at hfolder
        simp only [hwalk, hfolder] at hwrite
        exact nomatch hwrite
    · rw [hwalk] at hwrite
      exact nomatch hwrite

/-! ## The way up -/

/-- There are more folders missing above a location than a number says: it lies that much further
down than the first of them. -/
def MissesMore (t : FileTree) (calls : Nat) (l : Location) : Prop :=
  ∃ above, above <+: l ∧ t.Opens above ∧ t.find? above = none ∧ above.length + calls < l.length

/-- Where a folder is missing above a location, that keeps a folder from being made there. -/
theorem makeFolder_of_missing (hl : l.IsPlain) (hshort : l.IsShort) {above : Location}
    (habove : above <+: l) (hne : above ≠ l) (hopen : t.Opens above)
    (hnone : t.find? above = none) :
    t.makeFolder working (.ofLocation l) = .error .missing := by
  rcases walk_cases (t := t) hl with
    ⟨-, hopens⟩ | ⟨place, name, rest, c, rfl, hplace, hstops, hwalk⟩
  · rw [hopens.folder_of_isPrefix habove hne] at hnone
    exact nomatch hnone
  · rw [makeFolder_of_walk_error hshort hwalk]
    -- One is stopped at the first folder that is missing, neither before it nor behind it.
    have hsame : above = place := by
      by_contra hother
      rcases List.prefix_or_prefix_of_prefix habove (List.prefix_append place (name :: rest)) with
        hover | hunder
      · rw [hplace.folder_of_isPrefix hover hother] at hnone
        exact nomatch hnone
      · obtain ⟨below, rfl⟩ := hunder
        cases below with
        | nil => exact hother (List.append_nil place)
        | cons first below =>
          obtain ⟨rfl, -⟩ := List.cons_prefix_cons.1
            ((List.prefix_append_right_inj place).1 habove)
          exact hstops.not_opens hopen
    rw [hstops.eq_missing (hsame ▸ hnone)]

/-- The way up ends at a folder that does not fail for another one missing. -/
theorem ascent_of_ne_missing {p : Path} (h : t.makeFolder working p ≠ .error .missing) :
    t.ascent working p = 0 := by
  unfold ascent
  split
  · rename_i hmissing
    exact absurd hmissing h
  · rfl

theorem ascent_of_missing {p : Path} (h : t.makeFolder working p = .error .missing)
    (hsteps : p.steps ≠ []) : t.ascent working p = t.ascent working p.parent + 1 := by
  rw [ascent, h]
  exact dif_neg hsteps

/-- **Making folders takes as many calls inside each other as folders are missing** above the one
that is asked for. -/
theorem lt_ascent_iff (hl : l.IsPlain) (hshort : l.IsShort) (calls : Nat) :
    calls < t.ascent working (.ofLocation l) ↔ t.MissesMore calls l := by
  induction l using List.reverseRecOn generalizing calls with
  | nil =>
    have hroot : t.makeFolder working (.ofLocation []) ≠ .error .missing := by
      intro hmake
      obtain ⟨above, habove, hne, -, -⟩ := exists_missing_of_makeFolder hl hshort hmake
      exact hne (List.prefix_nil.1 habove)
    rw [ascent_of_ne_missing hroot]
    refine iff_of_false (Nat.not_lt_zero calls) ?_
    rintro ⟨above, -, -, -, hlength⟩
    exact Nat.not_lt_zero _ hlength
  | append_singleton l name ih =>
    by_cases hmake : t.makeFolder working (.ofLocation (l ++ [name])) = .error .missing
    · have hparent : (Path.ofLocation (l ++ [name])).parent = .ofLocation l :=
        congrArg (Path.mk .root) List.dropLast_concat
      have hlast := ih (fun n hn => hl n (List.mem_append_left _ hn)) hshort.of_append
      rw [ascent_of_missing hmake (List.append_ne_nil_of_right_ne_nil l (List.cons_ne_nil name [])),
        hparent]
      cases calls with
      | zero =>
        obtain ⟨above, habove, hne, hopen, hnone⟩ := exists_missing_of_makeFolder hl hshort hmake
        refine iff_of_true (Nat.succ_pos _) ⟨above, habove, hopen, hnone, ?_⟩
        exact lt_of_le_of_ne habove.length_le fun hlength => hne (habove.eq_of_length hlength)
      | succ calls =>
        rw [Nat.succ_lt_succ_iff, hlast calls]
        constructor
        · rintro ⟨above, habove, hopen, hnone, hlength⟩
          refine ⟨above, habove.trans (List.prefix_append l [name]), hopen, hnone, ?_⟩
          rw [List.length_append, List.length_singleton]
          omega
        · rintro ⟨above, habove, hopen, hnone, hlength⟩
          rw [List.length_append, List.length_singleton] at hlength
          refine ⟨above, (List.prefix_concat_iff.1 habove).resolve_left ?_, hopen, hnone, by omega⟩
          rintro rfl
          rw [List.length_append, List.length_singleton] at hlength
          omega
    · rw [ascent_of_ne_missing hmake]
      refine iff_of_false (Nat.not_lt_zero calls) ?_
      rintro ⟨above, habove, hopen, hnone, hlength⟩
      refine hmake (makeFolder_of_missing hl hshort habove ?_ hopen hnone)
      rintro rfl
      omega

/-- **The stack is exhausted if and only if too many folders are missing**, and the path is not too
long to be followed in the first place. -/
theorem makeFoldersWithin_eq_none_iff (hl : l.IsPlain) (calls : Nat) :
    t.makeFoldersWithin calls working (.ofLocation l) = none
      ↔ l.IsShort ∧ t.MissesMore calls l := by
  have hnone : t.makeFoldersWithin calls working (.ofLocation l) = none
      ↔ calls < t.ascent working (.ofLocation l) := by
    unfold makeFoldersWithin
    split
    · rename_i hle
      exact iff_of_false (fun h => nomatch h) (Nat.not_lt.2 hle)
    · rename_i hlt
      exact iff_of_true rfl (Nat.not_le.1 hlt)
  by_cases hshort : l.IsShort
  · rw [hnone, lt_ascent_iff hl hshort]
    exact ⟨fun h => ⟨hshort, h⟩, fun h => h.2⟩
  · have hlocate : t.locate working (.ofLocation l) = .error .nameTooLong :=
      if_pos (Nat.not_lt.1 hshort)
    rw [hnone, ascent_of_ne_missing (by simp [makeFolder, hlocate])]
    exact iff_of_false (Nat.not_lt_zero calls) fun h => hshort h.1

end Trees

end FileTree

end TurboBench.Files
