import MzzPlork.Theory.Advertised

/-!
# Whether Every Request Is Answered

A client may ask for any URL, and the listener is on its own: what it throws is
caught nowhere.

Nothing outside of the resource directory is ever sent. But a URL that does not
decode is not answered at all, and neither is one that names a directory, the
resource directory itself or one inside: it exists, so the head goes out, and
reading it fails afterwards. In both cases the server is gone.

## Main definitions

* `Proper`: The answers the listener is meant to give.
* `NamesDirectory`: The ids that stand for a directory.

## Theorems

* `at_eq_other`, `resolveResourceFile_eq_other`: When a directory is resolved.
* `proper_of_resolved`: The answer, where a URL decodes and names no directory.
* `proper_iff`: Which requests are answered properly.
* `not_proper_percent`: One that is not.
-/

namespace MzzPlork

namespace Server

section Requests

variable (resourcesDir : ResourceDir)

/-- A request is answered, with 404 or with the bytes of a file that lies in
    the resource directory. -/
def Proper (response : Option HttpResponse) : Prop :=
  response = some ⟨404, none, []⟩ ∨
    ∃ name content, (name, .file content) ∈ resourcesDir.entries ∧
      response = some ⟨200, some content.length, content⟩

/-- An id stands for the resource directory or for a directory in it. -/
def NamesDirectory (id : JsString) : Prop :=
  id = js "." ∨ Bare id ∧ (id, .other) ∈ resourcesDir.entries

/-- A directory is found under its name, and so is the resource directory. -/
theorem at_eq_other (id : JsString) :
    resourcesDir.at id = some .other ↔ id = js "." ∨ (id, .other) ∈ resourcesDir.entries := by
  rw [ResourceDir.at]
  by_cases hself : id = js "."
  · rw [if_pos hself]
    exact iff_of_true rfl (Or.inl hself)
  · rw [if_neg hself, or_iff_right hself]
    exact lookup_entries resourcesDir id .other

theorem resolveResourceFile_eq_other (id : JsString) :
    resolveResourceFile resourcesDir id = some .other ↔ NamesDirectory resourcesDir id := by
  rw [resolveResourceFile, NamesDirectory]
  by_cases hpath : id = [] ∨ 47 ∈ id ∨ 92 ∈ id ∨ js ".." <:+: id
  · rw [if_pos hpath]
    refine iff_of_false (by simp only [reduceCtorEq, not_false_eq_true]) ?_
    rintro (rfl | ⟨hbare, hmem⟩)
    · exact absurd hpath (by decide)
    · have hlegal := resourcesDir.legal _ hmem
      rcases hpath with h | h | h | h
      · exact hlegal.nonempty h
      · exact hlegal.separator h
      · exact hbare.backslash h
      · exact hbare.dots h
  · rw [if_neg hpath, at_eq_other]
    rw [not_or, not_or, not_or] at hpath
    exact or_congr_right (and_iff_right ⟨hpath.2.2.1, hpath.2.2.2⟩).symm

/-- The answer, where the URL decodes and names no directory. -/
theorem proper_of_resolved (url id : JsString)
    (hdecoded : decodeURIComponent (resourceOf url) = some id)
    (hfile : (js "/resources/").isPrefixOf url = true →
      resolveResourceFile resourcesDir id ≠ some .other) :
    Proper resourcesDir (createHttpResourceServer resourcesDir url) := by
  rw [createHttpResourceServer, hdecoded]
  dsimp only
  cases hbefore : (js "/resources/").isPrefixOf url with
  | false => exact Or.inl rfl
  | true =>
      cases hentry : resolveResourceFile resourcesDir id with
      | none => exact Or.inl rfl
      | some entry =>
          cases entry with
          | other => exact absurd hentry (hfile hbefore)
          | file content =>
              have hmem := (resolveResourceFile_eq_file resourcesDir id content).mp hentry
              exact Or.inr ⟨id, content, hmem.2, rfl⟩

theorem not_proper_none : ¬ Proper resourcesDir none := by
  rintro (hnone | ⟨_, _, _, hnone⟩)
  · exact absurd hnone (by simp only [reduceCtorEq, not_false_eq_true])
  · exact absurd hnone (by simp only [reduceCtorEq, not_false_eq_true])

/-- A request is answered, and properly, exactly when its URL decodes and does
    not name a directory. -/
theorem proper_iff (url : JsString) :
    Proper resourcesDir (createHttpResourceServer resourcesDir url) ↔
      ∃ id, decodeURIComponent (resourceOf url) = some id ∧
        ¬ (js "/resources/" <+: url ∧ NamesDirectory resourcesDir id) := by
  constructor
  · intro hproper
    cases hdecoded : decodeURIComponent (resourceOf url) with
    | none =>
        rw [createHttpResourceServer, hdecoded] at hproper
        exact absurd hproper (not_proper_none resourcesDir)
    | some id =>
        refine ⟨id, rfl, ?_⟩
        rintro ⟨hbefore, hdirectory⟩
        rw [createHttpResourceServer, hdecoded, List.isPrefixOf_iff_prefix.mpr hbefore] at hproper
        simp only [(resolveResourceFile_eq_other resourcesDir id).mpr hdirectory] at hproper
        exact absurd hproper (not_proper_none resourcesDir)
  · rintro ⟨id, hdecoded, hdirectory⟩
    refine proper_of_resolved resourcesDir url id hdecoded (fun hbefore hother => ?_)
    exact hdirectory ⟨List.isPrefixOf_iff_prefix.mp hbefore,
      (resolveResourceFile_eq_other resourcesDir id).mp hother⟩

/-- An empty directory. -/
def emptyDir : ResourceDir where
  entries := []
  legal := fun _ he => absurd he List.not_mem_nil
  distinct := List.nodup_nil

/-- A lone percent sign is the end of the server. -/
theorem not_proper_percent :
    ¬ Proper emptyDir (createHttpResourceServer emptyDir (js "/resources/%")) := by
  have hcrash : createHttpResourceServer emptyDir (js "/resources/%") = none := by
    decide +kernel
  rw [hcrash]
  exact not_proper_none emptyDir

end Requests

end Server

end MzzPlork
