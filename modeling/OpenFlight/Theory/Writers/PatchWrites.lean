import OpenFlight.Theory.Writers.JsonPaths

/-!
# When a Patch Takes Effect

Whether a patch that adds or replaces a value leaves it where the reader finds it.

The reader skips empty components and the writer does not, so the writer can put a
value where the reader does not look. What the reader finds is then as it was before,
or, if nothing follows the empty components, something larger than the value. The
writer also does nothing, and reports no error, where the value would have to go into
something that is not an object.

## Main definitions

* `readKeys`: The keys by which the reader takes a path.
* `TakesEffect`: What a patch that sets a value should do.

## Theorems

* `patch_takes_effect_iff`: When it does that.
* `patch_skips`: A patch that does not.
-/

namespace OpenFlight.Writers

/-- The components that the reader does not skip. -/
def readKeys (path : String) : List String :=
  (pathParts path).filter fun part => !part.isEmpty

/-- The value is found afterwards and nothing that is found elsewhere changes, or else
    the patch fails and the file stays as it is. -/
structure TakesEffect (patch : JsonPatchOp) (value json : Json) : Prop where
  found : ∀ json', applyJsonPatch json patch = .ok json' →
    jsonGetPath json' patch.path = .ok value
  others : ∀ json', applyJsonPatch json patch = .ok json' →
    ∀ path v, ¬ readKeys path <+: readKeys patch.path → ¬ readKeys patch.path <+: readKeys path →
      (jsonGetPath json' path = .ok v ↔ jsonGetPath json path = .ok v)
  file : ∀ e, applyJsonPatch json patch = .error e →
    ∀ services t file message content document before after,
      readText t file "\x7b\x7d" message = .ok content →
      services.parseJson content = some document → applyPatches document before = .ok json →
      (applyJsonPatches services t file (before ++ patch :: after)).1 = t

theorem jsonGetPath_eq_ok_iff (json : Json) (path : String) (v : Json) :
    jsonGetPath json path = .ok v ↔ valueAt (readKeys path) json = some v :=
  getParts_eq_ok_iff (pathParts path) json v

theorem pathParts_ne_nil (path : String) : pathParts path ≠ [] := by
  unfold pathParts
  intro h
  exact splitAll_ne_nil ['/'] _ (List.map_eq_nil_iff.mp h)

section

variable {parts keys : List String}

theorem filter_eq_self_of_filled (h : "" ∉ parts) :
    (parts.filter fun part => !part.isEmpty) = parts := by
  rw [List.filter_eq_self]
  intro part hpart
  have hne : part ≠ "" := fun heq => h (heq ▸ hpart)
  simpa using hne

theorem not_mem_filter : "" ∉ parts.filter fun part => !part.isEmpty := by
  intro h
  exact absurd (List.mem_filter.mp h).2 (by decide)

/-- What leads elsewhere for the reader does so for the writer. -/
theorem elsewhere_of_filter (hkeys : "" ∉ keys)
    (hinside : ¬ keys <+: parts.filter fun part => !part.isEmpty)
    (hbeyond : ¬ (parts.filter fun part => !part.isEmpty) <+: keys) :
    ¬ keys <+: parts ∧ ¬ parts <+: keys := by
  constructor
  · intro h
    have hfilter := h.filter fun part => !part.isEmpty
    rw [filter_eq_self_of_filled hkeys] at hfilter
    exact hinside hfilter
  · intro h
    have hfilled : "" ∉ parts := fun hmem => hkeys (h.subset hmem)
    rw [filter_eq_self_of_filled hfilled] at hbeyond
    exact hbeyond h

/-- A component that is not empty comes after one that is. -/
def Resumes (parts : List String) : Prop :=
  ∃ before after, parts = before ++ "" :: after ∧ "" ∉ before ∧ ∃ part ∈ after, part ≠ ""

theorem filter_append_empty (before after : List String) (hbefore : "" ∉ before) :
    ((before ++ "" :: after).filter fun part => !part.isEmpty) =
      before ++ after.filter fun part => !part.isEmpty := by
  rw [List.filter_append, filter_eq_self_of_filled hbefore, List.filter_cons_of_neg (by decide)]

/-- If the reader goes on after an empty component it goes elsewhere. -/
theorem elsewhere_of_resumes (h : Resumes parts) :
    ¬ (parts.filter fun part => !part.isEmpty) <+: parts ∧
      ¬ parts <+: parts.filter fun part => !part.isEmpty := by
  rcases h with ⟨before, after, rfl, hbefore, part, hpart, hne⟩
  constructor
  · rw [filter_append_empty before after hbefore, List.prefix_append_right_inj]
    intro hinside
    cases hfilter : after.filter fun part => !part.isEmpty with
    | nil =>
        have hempty := List.filter_eq_nil_iff.mp hfilter part hpart
        exact hne (by simpa using hempty)
    | cons first rest =>
        rw [hfilter, List.cons_prefix_cons] at hinside
        have hmem : "" ∈ after.filter fun part => !part.isEmpty := by
          rw [hfilter, hinside.1]
          exact List.mem_cons_self
        exact not_mem_filter hmem
  · exact fun hinside => not_mem_filter (hinside.subset (by simp))

/-- If it does not, the place where it stops is above that where the writer goes. -/
theorem above_of_not_resumes (hempty : "" ∈ parts) (h : ¬ Resumes parts) :
    ∃ rest, rest ≠ [] ∧ parts = (parts.filter fun part => !part.isEmpty) ++ rest := by
  rcases List.eq_append_cons_of_mem hempty with ⟨before, after, rfl, hbefore⟩
  have hall : ∀ part ∈ after, part = "" := by
    intro part hpart
    by_contra hne
    exact h ⟨before, after, rfl, hbefore, part, hpart, hne⟩
  have hafter : (after.filter fun part => !part.isEmpty) = [] := by
    rw [List.filter_eq_nil_iff]
    intro part hpart
    rw [hall part hpart]
    decide
  refine ⟨"" :: after, List.cons_ne_nil _ _, ?_⟩
  rw [filter_append_empty before after hbefore, hafter, List.append_nil]

end

section

variable {patch : JsonPatchOp} {value json : Json}

theorem not_mem_readKeys (path : String) : "" ∉ readKeys path :=
  not_mem_filter

/-- A patch with a value sets it. -/
theorem applyJsonPatch_eq_set (hop : patch.op = .add ∨ patch.op = .replace)
    (hvalue : patch.value = some value) :
    applyJsonPatch json patch = setParts value (pathParts patch.path) json := by
  rcases hop with hop | hop <;> simp [applyJsonPatch, hop, setPatchValue, hvalue, jsonSetPath]

/-- A patch that fails stops the patches before anything is written. -/
theorem applyPatches_of_error {document : Json} {before after : List JsonPatchOp} {e : PatchError}
    (hbefore : applyPatches document before = .ok json)
    (h : applyJsonPatch json patch = .error e) :
    applyPatches document (before ++ patch :: after) = .error e := by
  induction before generalizing document with
  | nil =>
      rw [applyPatches, Except.ok.injEq] at hbefore
      subst hbefore
      rw [List.nil_append, applyPatches, h]
  | cons first rest ih =>
      rw [applyPatches] at hbefore
      rw [List.cons_append, applyPatches]
      cases hfirst : applyJsonPatch document first with
      | error e' =>
          rw [hfirst] at hbefore
          cases hbefore
      | ok next =>
          rw [hfirst] at hbefore
          exact ih hbefore

theorem file_of_error {e : PatchError} (h : applyJsonPatch json patch = .error e)
    (services : Services) (t : Tree) (file : Path) (message content : String) (document : Json)
    (before after : List JsonPatchOp) (htext : readText t file "\x7b\x7d" message = .ok content)
    (hparse : services.parseJson content = some document)
    (hbefore : applyPatches document before = .ok json) :
    (applyJsonPatches services t file (before ++ patch :: after)).1 = t := by
  have htext' : readText t file "\x7b\x7d" "Failed to read existing JSON file" = .ok content := by
    unfold readText at htext ⊢
    split_ifs at htext ⊢ with hexists
    · cases hread : readToString t file with
      | none =>
          rw [hread] at htext
          cases htext
      | some text =>
          rw [hread] at htext
          exact htext
    · exact htext
  unfold applyJsonPatches editFile
  rw [htext']
  dsimp only
  rw [hparse]
  dsimp only
  rw [applyPatches_of_error hbefore h]

/-- A value that was written leaves everything else for the reader as it was. -/
theorem others_of_written {json' : Json} {path : String}
    (h : Written value (pathParts path) json json') (other : String) (v : Json)
    (hinside : ¬ readKeys other <+: readKeys path)
    (hbeyond : ¬ readKeys path <+: readKeys other) :
    jsonGetPath json' other = .ok v ↔ jsonGetPath json other = .ok v := by
  have hraw := elsewhere_of_filter (not_mem_readKeys other) hinside hbeyond
  rw [jsonGetPath_eq_ok_iff, jsonGetPath_eq_ok_iff, h.frame _ hraw.1 hraw.2]

/-- Whether the reader finds a value that was written. -/
theorem found_of_written {json' : Json} {path : String}
    (h : Written value (pathParts path) json json') :
    jsonGetPath json' path = .ok value ↔
      "" ∉ pathParts path ∨
        (valueAt (readKeys path) json = some value ∧ Resumes (pathParts path)) := by
  rw [jsonGetPath_eq_ok_iff]
  by_cases hempty : "" ∈ pathParts path
  · by_cases hresumes : Resumes (pathParts path)
    · have helsewhere := elsewhere_of_resumes hresumes
      rw [h.frame (readKeys path) helsewhere.1 helsewhere.2]
      exact ⟨fun hread => .inr ⟨hread, hresumes⟩, fun hcases =>
        hcases.elim (absurd hempty) And.left⟩
    · rcases above_of_not_resumes hempty hresumes with ⟨rest, hne, hparts⟩
      refine ⟨fun hread => ?_, fun hcases => hcases.elim (absurd hempty) fun hr =>
        absurd hr.2 hresumes⟩
      -- What is found has the value inside of it.
      have hvalue := h.value
      rw [hparts, valueAt_append] at hvalue
      change (valueAt (readKeys path) json').bind _ = _ at hvalue
      rw [hread, Option.bind_some] at hvalue
      exact absurd (sizeOf_valueAt_lt hne hvalue) (lt_irrefl _)
  · rw [readKeys, filter_eq_self_of_filled hempty]
    exact ⟨fun _ => .inl hempty, fun _ => h.value⟩

/-- A patch that adds or replaces a value takes effect in three cases. It fails,
    because on the way to the parent of the value there is something that is not an
    object. Or its path has no empty component, and the parent is an object or not
    there. Or the value is found by the reader already, and either the parent is
    something else than an object or the reader goes on after an empty component. -/
theorem patch_takes_effect_iff (hop : patch.op = .add ∨ patch.op = .replace)
    (hvalue : patch.value = some value) (hjson : json.Ordered) :
    TakesEffect patch value json ↔
      (∃ n, n + 1 < (pathParts patch.path).length ∧ Blocked ((pathParts patch.path).take n) json) ∨
      ("" ∉ pathParts patch.path ∧ ¬ Blocked (pathParts patch.path).dropLast json) ∨
      (valueAt (readKeys patch.path) json = some value ∧
        (Blocked (pathParts patch.path).dropLast json ∨ Resumes (pathParts patch.path))) := by
  have hfails : (∃ e, setParts value (pathParts patch.path) json = .error e) ↔ _ :=
    setParts_fails_iff (pathParts patch.path) json
  rw [← hfails]
  have hset : applyJsonPatch json patch = setParts value (pathParts patch.path) json :=
    applyJsonPatch_eq_set hop hvalue
  cases hresult : setParts value (pathParts patch.path) json with
  | error e =>
      rw [hresult] at hset
      refine ⟨fun _ => .inl ⟨e, rfl⟩, fun _ => ⟨fun json' h => ?_, fun json' h => ?_, fun _ h =>
        file_of_error h⟩⟩ <;>
      · rw [hset] at h
        cases h
  | ok json' =>
      rw [hresult] at hset
      have hiff : TakesEffect patch value json ↔
          jsonGetPath json' patch.path = .ok value ∧ ∀ path v,
            ¬ readKeys path <+: readKeys patch.path → ¬ readKeys patch.path <+: readKeys path →
              (jsonGetPath json' path = .ok v ↔ jsonGetPath json path = .ok v) := by
        refine ⟨fun h => ⟨h.found json' hset, h.others json' hset⟩, fun h =>
          ⟨fun result hr => ?_, fun result hr => ?_, fun _ h => file_of_error h⟩⟩
        · rw [hset, Except.ok.injEq] at hr
          exact hr ▸ h.1
        · rw [hset, Except.ok.injEq] at hr
          exact hr ▸ h.2
      rw [hiff]
      rcases setParts_spec hjson (pathParts_ne_nil patch.path) hresult with
        ⟨hblocked, rfl⟩ | ⟨hfree, hwritten⟩
      · rw [jsonGetPath_eq_ok_iff]
        simp [hblocked]
      · rw [and_iff_left (others_of_written hwritten), found_of_written hwritten]
        simp [hfree]

/-- A patch for `/a/b`. -/
def nestedPatch : JsonPatchOp where
  op := .add
  path := "/a/b"
  value := some (.bool true)
  source := none

/-- In an empty document the objects are made. -/
theorem patch_makes_parents : TakesEffect nestedPatch (.bool true) (.object []) := by
  refine (patch_takes_effect_iff (.inl rfl) rfl (.object [] List.Pairwise.nil (by simp))).mpr ?_
  have hparts : pathParts nestedPatch.path = ["a", "b"] := by decide +kernel
  rw [hparts]
  refine .inr (.inl ⟨by decide, fun h => ?_⟩)
  rcases h with ⟨v, hv, -⟩
  cases hv

/-- Into a number nothing can be put, and the patch succeeds without effect. -/
theorem patch_skips : (Json.object [("a", .number (.posInt 5))]).Ordered ∧
      applyJsonPatch (.object [("a", .number (.posInt 5))]) nestedPatch =
        .ok (.object [("a", .number (.posInt 5))]) ∧
      ¬ TakesEffect nestedPatch (.bool true) (.object [("a", .number (.posInt 5))]) := by
  have hparts : pathParts "/a/b" = ["a", "b"] := by decide +kernel
  have hresult : applyJsonPatch (.object [("a", .number (.posInt 5))]) nestedPatch =
      .ok (.object [("a", .number (.posInt 5))]) := by
    rw [applyJsonPatch_eq_set (.inl rfl) rfl]
    change setParts _ (pathParts "/a/b") _ = _
    rw [hparts]
    rfl
  refine ⟨.object _ (List.pairwise_singleton _ _) (by simp [Json.Ordered.number]), hresult,
    fun h => ?_⟩
  have hfound := h.found _ hresult
  change getParts (pathParts "/a/b") _ = _ at hfound
  rw [hparts] at hfound
  cases hfound

end

end OpenFlight.Writers
