import MzzPlork.Core.HttpResources
import MzzPlork.Core.ResourceManager
import MzzPlork.Theory.Encoding

/-!
# Whether What Is Advertised Can Be Fetched

The manifest has an entry for each regular file of the resource directory, and
the client asks for a resource by pasting its id into a URL. The server takes
the URL for percent-encoded and refuses ids that look like paths.

So a name without a `%` is found unless it has a backslash or two dots in a
row, which are as good as any other characters in a name. A name with a `%` is
never found itself: it does not decode, and then the server is gone, or it
decodes to another name.

## Main definitions

* `requestUrl`: The URL the client asks for.
* `Answered`: A request that is answered with what was advertised.
* `Fetchable`: The entries for which it is.

## Theorems

* `urlPath_requestFor`: The URL is the one of the client's request.
* `mem_manifest`: What is advertised.
* `decodeURIComponent_plain`: Where nothing is escaped.
* `answer_iff`: What the server answers.
* `answered_iff`: Which entries can be fetched.
* `not_answered_dots`: One that cannot.
-/

namespace MzzPlork

namespace Server

/-- The URL of a request for a resource. -/
def requestUrl (id : JsString) : JsString := js "/resources/" ++ id

/-- It is what the client sends for an entry it has received. -/
theorem urlPath_requestFor (origin : ResourceManager.Origin) (resourcesDir : Bytes)
    (entry : ResourceEntry) (id : JsString) (h : entry.id = Wire.utf8 id) :
    (ResourceManager.requestFor origin resourcesDir entry).urlPath
      = Wire.utf8 (requestUrl id) := by
  have hspelt := Wire.spelt_ascii (js "/resources/") rfl id
  rw [requestUrl, hspelt, ResourceManager.requestFor, h]
  rfl

section Decoding

theorem uriParts_unit (u : UInt16) (s : JsString) (h : u ≠ 37) :
    uriParts (u :: s) = (uriParts s).map (fun parts => .unit u :: parts) := by
  match s with
  | [] => exact if_neg h
  | [_] => exact if_neg h
  | _ :: _ :: _ => rw [uriParts, if_neg h]

theorem uriParts_plain (s : JsString) (h : 37 ∉ s) : uriParts s = some (s.map UriPart.unit) := by
  induction s with
  | nil => rfl
  | cons u s ih =>
      rw [List.mem_cons, not_or] at h
      rw [uriParts_unit u s (Ne.symm h.1), ih h.2]
      rfl

theorem joinParts_units (s : JsString) : joinParts (s.map UriPart.unit) = some s := by
  induction s with
  | nil => rfl
  | cons u s ih =>
      rw [List.map_cons, joinParts, ih]
      rfl

/-- Where nothing is escaped, nothing changes. -/
theorem decodeURIComponent_plain (s : JsString) (h : 37 ∉ s) :
    decodeURIComponent s = some s := by
  rw [decodeURIComponent, uriParts_plain s h, Option.bind_some, joinParts_units]

end Decoding

section Manifest

variable (sha256Hex : Bytes → JsString) (manifestVersion : JsString)

/-- The loop advertises regular files, as they are. -/
theorem mem_manifestEntries (dependencyConfig : JsValue) (entries : List (JsString × DirEntry))
    (resources : List ManifestEntry)
    (h : manifestEntries sha256Hex manifestVersion dependencyConfig entries = some resources)
    (e : ManifestEntry) (he : e ∈ resources) :
    ∃ content, (e.id, .file content) ∈ entries ∧ e.size = content.length ∧
      e.hash = sha256Hex content := by
  induction entries generalizing resources with
  | nil =>
      rw [← Option.some.inj h] at he
      exact absurd he List.not_mem_nil
  | cons entry entries ih =>
      rcases entry with ⟨name, content | _⟩
      · rw [manifestEntries] at h
        rcases Option.bind_eq_some_iff.mp h with ⟨dependencies, _, h⟩
        rcases Option.bind_eq_some_iff.mp h with ⟨rest, hrest, h⟩
        rw [← Option.some.inj h] at he
        rcases List.mem_cons.mp he with rfl | he
        · exact ⟨content, List.mem_cons_self, rfl, rfl⟩
        · rcases ih rest hrest he with ⟨other, hmem, hsame⟩
          exact ⟨other, List.mem_cons_of_mem _ hmem, hsame⟩
      · rw [manifestEntries] at h
        rcases ih resources h he with ⟨other, hmem, hsame⟩
        exact ⟨other, List.mem_cons_of_mem _ hmem, hsame⟩

/-- So the manifest advertises nothing else. -/
theorem mem_manifest (resourcesDir : ResourceDir) (config : Option (Option JsValue))
    (manifest : ResourceManifest)
    (h : computeManifest sha256Hex resourcesDir manifestVersion config = some manifest)
    (e : ManifestEntry) (he : e ∈ manifest.resources) :
    ∃ content, (e.id, .file content) ∈ resourcesDir.entries ∧ e.size = content.length ∧
      e.hash = sha256Hex content := by
  rcases Option.map_eq_some_iff.mp h with ⟨resources, hresources, rfl⟩
  exact mem_manifestEntries sha256Hex manifestVersion _ _ resources hresources e he

end Manifest

section Answer

variable (resourcesDir : ResourceDir)

/-- The names are distinct, so an entry is what is found under its name. -/
theorem lookup_entries (id : JsString) (entry : DirEntry) :
    resourcesDir.entries.lookup id = some entry ↔ (id, entry) ∈ resourcesDir.entries := by
  constructor
  · intro h
    rcases List.lookup_eq_some_iff.mp h with ⟨pre, post, hsplit, _⟩
    rw [hsplit]
    exact List.mem_append_right pre List.mem_cons_self
  · intro hmem
    rcases List.append_of_mem hmem with ⟨pre, post, hsplit⟩
    have hdistinct := resourcesDir.distinct
    rw [hsplit, List.map_append, List.map_cons] at hdistinct
    refine List.lookup_eq_some_iff.mpr ⟨pre, post, hsplit, fun p hp => ?_⟩
    -- Another entry of the same name does not come before it.
    refine bne_iff_ne.mpr (fun heq => ?_)
    refine (List.disjoint_of_nodup_append hdistinct) (List.mem_map_of_mem hp) ?_
    exact heq ▸ List.mem_cons_self

/-- A file of the directory is found under its name, and no other file. -/
theorem at_eq_file (id : JsString) (content : Bytes) :
    resourcesDir.at id = some (.file content) ↔ (id, .file content) ∈ resourcesDir.entries := by
  rw [ResourceDir.at]
  by_cases hself : id = js "."
  · rw [if_pos hself]
    refine iff_of_false (by simp only [Option.some.injEq, reduceCtorEq, not_false_eq_true])
      (fun hmem => ?_)
    exact (resourcesDir.legal _ hmem).self hself
  · rw [if_neg hself]
    exact lookup_entries resourcesDir id (.file content)

/-- An id that does not look like a path. -/
structure Bare (id : JsString) : Prop where
  backslash : 92 ∉ id
  dots : ¬ js ".." <:+: id

theorem resolveResourceFile_eq_file (id : JsString) (content : Bytes) :
    resolveResourceFile resourcesDir id = some (.file content) ↔
      Bare id ∧ (id, .file content) ∈ resourcesDir.entries := by
  rw [resolveResourceFile, ← at_eq_file]
  by_cases hpath : id = [] ∨ 47 ∈ id ∨ 92 ∈ id ∨ js ".." <:+: id
  · rw [if_pos hpath]
    refine iff_of_false (by simp only [reduceCtorEq, not_false_eq_true]) ?_
    rintro ⟨hbare, hat⟩
    have hlegal := resourcesDir.legal _ ((at_eq_file resourcesDir id content).mp hat)
    rcases hpath with h | h | h | h
    · exact hlegal.nonempty h
    · exact hlegal.separator h
    · exact hbare.backslash h
    · exact hbare.dots h
  · rw [if_neg hpath]
    rw [not_or, not_or, not_or] at hpath
    exact (and_iff_right ⟨hpath.2.2.1, hpath.2.2.2⟩).symm

theorem isPrefixOf_requestUrl (id : JsString) :
    (js "/resources/").isPrefixOf (requestUrl id) = true :=
  List.isPrefixOf_iff_prefix.mpr (List.prefix_append _ _)

/-- The server answers a client with a file if the id decodes to its name and
    does not look like a path. -/
theorem answer_iff (id : JsString) (contentLength : Option Nat) (body : Bytes) :
    createHttpResourceServer resourcesDir (requestUrl id) = some ⟨200, contentLength, body⟩ ↔
      contentLength = some body.length ∧ ∃ name, decodeURIComponent id = some name ∧
        Bare name ∧ (name, .file body) ∈ resourcesDir.entries := by
  have hid : resourceOf (requestUrl id) = id := by
    rw [resourceOf, if_pos (isPrefixOf_requestUrl id), requestUrl, List.drop_left]
  rw [createHttpResourceServer, hid, isPrefixOf_requestUrl]
  cases hdecoded : decodeURIComponent id with
  | none =>
      refine iff_of_false (by simp only [reduceCtorEq, not_false_eq_true]) ?_
      rintro ⟨_, _, hsome, _⟩
      exact absurd hsome (by simp only [reduceCtorEq, not_false_eq_true])
  | some name =>
      simp only [Option.some.injEq, exists_eq_left', ← resolveResourceFile_eq_file]
      -- What resolves to no file is answered with another status.
      cases hfile : resolveResourceFile resourcesDir name with
      | none =>
          refine iff_of_false (by simp only [Option.some.injEq, HttpResponse.mk.injEq,
            Nat.reduceEqDiff, false_and, not_false_eq_true]) ?_
          rintro ⟨_, hsome⟩
          exact absurd hsome (by simp only [reduceCtorEq, not_false_eq_true])
      | some entry =>
          cases entry with
          | other =>
              refine iff_of_false (by simp only [reduceCtorEq, not_false_eq_true]) ?_
              rintro ⟨_, hsome⟩
              exact absurd hsome
                (by simp only [Option.some.injEq, reduceCtorEq, not_false_eq_true])
          | file content =>
              simp only [Option.some.injEq, HttpResponse.mk.injEq, true_and, DirEntry.file.injEq]
              constructor
              · rintro ⟨hlen, rfl⟩
                exact ⟨hlen.symm, rfl⟩
              · rintro ⟨hlen, rfl⟩
                exact ⟨hlen.symm, rfl⟩

end Answer

section Fetching

variable (sha256Hex : Bytes → JsString) (resourcesDir : ResourceDir)

/-- The request for an entry is answered with what was advertised. -/
def Answered (e : ManifestEntry) : Prop :=
  ∃ contentLength body, createHttpResourceServer resourcesDir (requestUrl e.id)
      = some ⟨200, contentLength, body⟩ ∧ body.length = e.size ∧ sha256Hex body = e.hash

/-- The entries that can be fetched. One without a `%` in its name does not look
    like a path. One with a `%` escapes the name of a file, which does not look
    like a path either, and the file has the advertised size and hash. -/
def Fetchable (e : ManifestEntry) : Prop :=
  (37 ∉ e.id ∧ Bare e.id) ∨
  (37 ∈ e.id ∧ ∃ name body, decodeURIComponent e.id = some name ∧ Bare name ∧
    (name, .file body) ∈ resourcesDir.entries ∧ body.length = e.size ∧ sha256Hex body = e.hash)

/-- Which of the advertised entries can be fetched. -/
theorem answered_iff (manifestVersion : JsString) (config : Option (Option JsValue))
    (manifest : ResourceManifest)
    (h : computeManifest sha256Hex resourcesDir manifestVersion config = some manifest)
    (e : ManifestEntry) (he : e ∈ manifest.resources) :
    Answered sha256Hex resourcesDir e ↔ Fetchable sha256Hex resourcesDir e := by
  rcases mem_manifest sha256Hex manifestVersion resourcesDir config manifest h e he with
    ⟨content, hmem, hsize, hhash⟩
  have hanswered : Answered sha256Hex resourcesDir e ↔ ∃ name body,
      decodeURIComponent e.id = some name ∧ Bare name ∧
        (name, .file body) ∈ resourcesDir.entries ∧ body.length = e.size ∧
        sha256Hex body = e.hash := by
    simp only [Answered, answer_iff]
    constructor
    · rintro ⟨_, body, ⟨_, name, hname, hbare, hfile⟩, hgood⟩
      exact ⟨name, body, hname, hbare, hfile, hgood⟩
    · rintro ⟨name, body, hname, hbare, hfile, hgood⟩
      exact ⟨_, body, ⟨rfl, name, hname, hbare, hfile⟩, hgood⟩
  rw [hanswered, Fetchable]
  by_cases hpercent : 37 ∈ e.id
  · rw [and_iff_right hpercent, or_iff_right (fun hc => hc.1 hpercent)]
  -- Where nothing is escaped, the name is the entry's own.
  · rw [and_iff_right hpercent, or_iff_left (fun hc => hpercent hc.1),
      decodeURIComponent_plain e.id hpercent]
    constructor
    · rintro ⟨name, body, hname, hbare, _⟩
      rw [Option.some.inj hname]
      exact hbare
    · exact fun hbare => ⟨e.id, content, rfl, hbare, hmem, hsize.symm, hhash.symm⟩

/-- A directory with one file, that holds the letter `a`. -/
def letterDir (name : JsString) (legal : LegalName name) : ResourceDir where
  entries := [(name, .file [97])]
  legal := fun e he => by
    rw [List.mem_singleton.mp he]
    exact legal
  distinct := List.nodup_singleton name

/-- What is advertised for it. -/
def letterEntry (name : JsString) : ManifestEntry where
  id := name
  path := name
  size := 1
  hash := js "ca978112ca1bbdcafac231b39a23dc4da786eff8147c4e72b9807785afee48bb"
  version := js "1.0.0"
  dependencies := []

/-- The SHA-256 of the letter. -/
def letterSha256 : Bytes → JsString := fun _ =>
  js "ca978112ca1bbdcafac231b39a23dc4da786eff8147c4e72b9807785afee48bb"

theorem legalName_dotted : LegalName (js "map.v2.dat") := ⟨by decide, by decide, by decide,
  by decide, by decide⟩

/-- A name with two dots that are apart can be fetched. -/
theorem answered_dotted :
    Answered letterSha256 (letterDir (js "map.v2.dat") legalName_dotted)
      (letterEntry (js "map.v2.dat")) :=
  (answered_iff letterSha256 _ (js "1.0.0") none
    ⟨js "1.0.0", [letterEntry (js "map.v2.dat")]⟩ rfl _ List.mem_cons_self).mpr
    (Or.inl ⟨by decide, by decide, by decide⟩)

theorem legalName_dots : LegalName (js "a..txt") := ⟨by decide, by decide, by decide, by decide,
  by decide⟩

/-- A name with two dots in a row is advertised, and not found. -/
theorem not_answered_dots :
    ¬ ∀ (sha256Hex : Bytes → JsString) (resourcesDir : ResourceDir) (manifestVersion : JsString)
      (config : Option (Option JsValue)) (manifest : ResourceManifest),
      computeManifest sha256Hex resourcesDir manifestVersion config = some manifest →
      ∀ e ∈ manifest.resources, Answered sha256Hex resourcesDir e := by
  intro h
  rcases h letterSha256 (letterDir (js "a..txt") legalName_dots) (js "1.0.0") none
    ⟨js "1.0.0", [letterEntry (js "a..txt")]⟩ rfl _ List.mem_cons_self with
    ⟨contentLength, body, hanswer, _⟩
  have hmissing : createHttpResourceServer (letterDir (js "a..txt") legalName_dots)
      (requestUrl (js "a..txt")) = some ⟨404, none, []⟩ := by decide +kernel
  have hstatus : 404 = 200 :=
    congrArg HttpResponse.status (Option.some.inj (hmissing.symm.trans hanswer))
  exact absurd hstatus (by decide)

end Fetching

end Server

end MzzPlork
