import TurboBench.Files.Access
import TurboBench.Proofs.Files.Normalisation

/-!
# What changes below a folder

Making a folder together with those above it puts folders where nothing was, on the way down to it
and nowhere else (`sameOrMade_makeFolders`). Writing a file changes one location. Where both are
done below a folder, nothing changes outside of it, but that the folder and the folders above it may
have been made (`FileTree.SameOutside`).
-/

set_option autoImplicit false

namespace TurboBench.Files

open TurboBench.Text (normalizeNewlines)

namespace FileTree

/-- Between two trees, what stands at a location is the same, or nothing was there and it has become
a folder, on the way down to another location. -/
def SameOrMade (down : Location) (t u : FileTree) (l : Location) : Prop :=
  u.find? l = t.find? l ∨ (l <+: down ∧ t.find? l = none ∧ u.find? l = some .folder)

/-- All that does not stand strictly below a folder is the same, but that the folder and the folders
above it may have been made. -/
def SameOutside (folder : Location) (t u : FileTree) : Prop :=
  ∀ l, folder.isBelow l = false → SameOrMade folder t u l

section SameOrMade

variable {down folder l : Location} {t u v : FileTree}

/-- What is the same or made at each of two steps is so at both together. -/
theorem SameOrMade.trans (h : SameOrMade down t u l) (k : SameOrMade down u v l) :
    SameOrMade down t v l := by
  rcases h with hsame | ⟨hdown, hnone, hmade⟩
  · rcases k with hsame' | ⟨hdown, hnone, hmade⟩
    · exact .inl (hsame'.trans hsame)
    · exact .inr ⟨hdown, hsame ▸ hnone, hmade⟩
  · rcases k with hsame' | ⟨_, hnone', _⟩
    · exact .inr ⟨hdown, hnone, hsame'.trans hmade⟩
    · -- what was made is there
      rw [hmade] at hnone'
      exact nomatch hnone'

theorem SameOrMade.mono {further : Location} (h : SameOrMade down t u l)
    (hdown : down <+: further) : SameOrMade further t u l := by
  rcases h with hsame | ⟨hl, hmade⟩
  · exact .inl hsame
  · exact .inr ⟨hl.trans hdown, hmade⟩

theorem SameOutside.refl (folder : Location) (t : FileTree) : SameOutside folder t t :=
  fun _ _ => .inl rfl

theorem SameOutside.trans (h : SameOutside folder t u) (k : SameOutside folder u v) :
    SameOutside folder t v :=
  fun l hl => (h l hl).trans (k l hl)

end SameOrMade

section Making

variable {t u : FileTree} {working l : Location}

/-- A folder that was made is the only change, and nothing was there. -/
theorem sameOrMade_makeFolder (hl : l.IsPlain)
    (h : t.makeFolder working (.ofLocation l) = .ok u) (m : Location) : SameOrMade l t u m := by
  unfold makeFolder at h
  split at h
  · exact nomatch h
  · rename_i place hplace
    obtain rfl : place = l :=
      (eq_location_of_locate hplace).trans (Path.location_ofLocation hl working)
    split at h
    · rename_i hnone
      obtain rfl := Except.ok.inj h
      by_cases hm : m = place
      · subst hm
        refine .inr ⟨List.prefix_rfl, hnone, find?_put_self t ?_ _⟩
        rintro rfl
        rw [find?_root] at hnone
        exact nomatch hnone
      · exact .inl (find?_put_of_ne t hm _)
    · exact nomatch h

/-- **Folders are made on the way down only**, also where not all of them can be made. -/
theorem sameOrMade_makeFolders {l : Location} (hl : l.IsPlain) (m : Location) :
    SameOrMade l t (t.makeFolders working (.ofLocation l)).1 m := by
  unfold makeFolders
  split
  · rename_i u hmade
    exact sameOrMade_makeFolder hl hmade m
  · split
    · exact .inl rfl
    · -- first the folder above, which changes no more than what lies on the way to it
      have habove : SameOrMade l t (t.makeFolders working (Path.ofLocation l).parent).1 m :=
        (sameOrMade_makeFolders hl.dropLast m).mono (List.dropLast_prefix l)
      split
      · rename_i u f hfault
        rw [hfault] at habove
        exact habove
      · rename_i u hdone
        rw [hdone] at habove
        split
        · rename_i v hmade
          exact habove.trans (sameOrMade_makeFolder hl hmade m)
        · exact habove
        · exact habove
  · exact .inl rfl
termination_by l.length
decreasing_by
  rename_i hsteps
  exact Path.length_parent hsteps

end Making

/-! ## Below a folder -/

section Below

variable {t u : FileTree} {working folder l : Location}

/-- The folders above what lies below a folder are below it as well, or on the way down to it. -/
theorem sameOutside_makeFolders (hl : l.IsPlain) (hbelow : folder.isBelow l = true) :
    SameOutside folder t (t.makeFolders working (Path.ofLocation l).parent).1 := by
  intro m hm
  have habove : SameOrMade l.dropLast t (t.makeFolders working (Path.ofLocation l).parent).1 m :=
    sameOrMade_makeFolders hl.dropLast m
  rcases habove with hsame | ⟨hdown, hmade⟩
  · exact .inl hsame
  · refine .inr ⟨?_, hmade⟩
    obtain ⟨hfolder, -⟩ := (Location.isBelow_iff folder l).1 hbelow
    rcases List.prefix_or_prefix_of_prefix (hdown.trans (List.dropLast_prefix l)) hfolder with
      hover | hunder
    · exact hover
    · by_cases hsame : folder = m
      · exact hsame ▸ List.prefix_rfl
      · rw [(Location.isBelow_iff folder m).2 ⟨hunder, hsame⟩] at hm
        exact nomatch hm

/-- A file below a folder changes nothing outside of that folder. -/
theorem sameOutside_write (hl : l.IsPlain) (hbelow : folder.isBelow l = true) {f : File}
    (h : t.write working (.ofLocation l) f = .ok u) : SameOutside folder t u := by
  intro m hm
  refine .inl (find?_of_write h ?_)
  rw [Path.location_ofLocation hl]
  rintro rfl
  rw [hbelow] at hm
  exact nomatch hm

end Below

/-! ## What is read -/

section Reading

variable {t : FileTree} {working : Location} {p : Path}

/-- What stands anywhere but at the root was put there. -/
theorem mem_entries_of_find? {l : Location} {e : Entry} (hl : l ≠ []) (h : t.find? l = some e) :
    (l, e) ∈ t.entries := by
  rw [find?_of_ne_root t hl] at h
  obtain ⟨before, after, hentries, -⟩ := List.lookup_eq_some_iff.1 h
  rw [hentries]
  exact List.mem_append_right before List.mem_cons_self

/-- Bytes that are read are those of the file that the path leads to. -/
theorem exists_of_read {bytes : List UInt8} (h : t.read working p = .ok bytes) :
    ∃ f, t.find? (p.location working) = some (.file f) ∧ f.bytes = bytes := by
  unfold read at h
  split at h
  · rename_i f hentry
    refine ⟨f, ?_, Except.ok.inj h⟩
    unfold entry at hentry
    split at hentry
    · exact nomatch hentry
    · rename_i l hl
      rw [← eq_location_of_locate hl]
      split at hentry
      · rename_i e hfind
        rw [hfind, Except.ok.inj hentry]
      · exact nomatch hentry
  · exact nomatch h
  · exact nomatch h

/-- A text that is read is what the bytes at the location stand for. -/
theorem exists_of_readText {l : Location} {text : List Char} (hl : l.IsPlain)
    (h : t.readText working (.ofLocation l) = .ok text) :
    ∃ f cs, t.find? l = some (.file f) ∧ Text.Utf8.decode f.bytes = .ok cs
      ∧ text = normalizeNewlines cs := by
  unfold readText at h
  split at h
  · exact nomatch h
  · rename_i bytes hread
    split at h
    · exact nomatch h
    · rename_i cs hcs
      obtain ⟨f, hfind, rfl⟩ := exists_of_read hread
      rw [Path.location_ofLocation hl] at hfind
      exact ⟨f, cs, hfind, hcs, (Except.ok.inj h).symm⟩

end Reading

end FileTree

end TurboBench.Files
