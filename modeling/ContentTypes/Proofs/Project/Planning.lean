import ContentTypes.Project.Plan

/-!
# First schemas win

What a plan holds can be said without the steps that make it. The file at a path is that of the first
schema that can be used and goes there, or else the support file of that name; each schema has either
its file in the plan or its entry among those that are skipped. `Follows` says so for the schemas that
have been added up to some point, and adding one more keeps it: `Follows.addFile`.
-/

namespace ContentTypes

open Declaration (GeneratedUnit SupportFile)

theorem Path.same_iff {path other : Path} :
    path.same other = true ↔ path.components = other.components := by
  simp [same]

namespace SchemaFile

def planned? (tree : FileTree) (schema : SchemaFile) : Option PlannedFile :=
  match GeneratedUnit.ofFile tree schema.kind schema.path with
  | .ok unit => some ⟨unit.path, unit.render, .schema schema.kind schema.path⟩
  | .error _ => none

def claims (tree : FileTree) (path : Path) (schema : SchemaFile) : Bool :=
  (schema.planned? tree).any (·.path.same path)

def firstClaim? (tree : FileTree) (schemas : List SchemaFile) (path : Path) : Option SchemaFile :=
  schemas.find? (·.claims tree path)

/-- What becomes of a schema that comes after others: its file, or why there is none. -/
def verdict (tree : FileTree) (earlier : List SchemaFile) (schema : SchemaFile) :
    Except SkipReason PlannedFile :=
  match GeneratedUnit.ofFile tree schema.kind schema.path with
  | .error error => .error (.unusable error)
  | .ok unit =>
    match firstClaim? tree earlier unit.path with
    | some first => .error (.collision unit.path first.path)
    | none => .ok ⟨unit.path, unit.render, .schema schema.kind schema.path⟩

def verdicts (tree : FileTree) (schemas : List SchemaFile) :
    List (SchemaFile × Except SkipReason PlannedFile) :=
  schemas.zipIdx.map fun (schema, place) => (schema, verdict tree (schemas.take place) schema)

def kept? : SchemaFile × Except SkipReason PlannedFile → Option PlannedFile
  | (_, .ok file) => some file
  | (_, .error _) => none

def skipped? : SchemaFile × Except SkipReason PlannedFile → Option SkippedSchema
  | (schema, .error reason) => some ⟨schema.path, reason⟩
  | (_, .ok _) => none

variable {tree : FileTree} {schema : SchemaFile} {schemas : List SchemaFile} {path other : Path}

theorem source_of_planned? {file : PlannedFile} (h : schema.planned? tree = some file) :
    file.source = .schema schema.kind schema.path := by
  unfold planned? at h
  split at h
  · cases h; rfl
  · cases h

theorem exists_unit_of_planned? {file : PlannedFile} (h : schema.planned? tree = some file) :
    ∃ unit, GeneratedUnit.ofFile tree schema.kind schema.path = .ok unit ∧ file.path = unit.path := by
  unfold planned? at h
  split at h
  · rename_i unit hu
    cases h
    exact ⟨unit, hu, rfl⟩
  · cases h

theorem exists_error_of_planned? (h : schema.planned? tree = none) :
    ∃ error, GeneratedUnit.ofFile tree schema.kind schema.path = .error error := by
  unfold planned? at h
  split at h
  · cases h
  · rename_i error he
    exact ⟨error, he⟩

theorem verdict_of_planned? {file : PlannedFile} (h : schema.planned? tree = some file)
    (earlier : List SchemaFile) : verdict tree earlier schema =
      match firstClaim? tree earlier file.path with
      | some first => .error (.collision file.path first.path)
      | none => .ok file := by
  unfold planned? at h
  split at h
  · rename_i unit hu
    cases h
    simp only [verdict, hu]
  · cases h

theorem addFile_of_planned? {file : PlannedFile} (h : schema.planned? tree = some file)
    (plan : Plan) : plan.addFile tree schema = plan.add file := by
  unfold planned? at h
  split at h
  · rename_i unit hu
    cases h
    simp only [Plan.addFile, hu]
  · cases h

theorem claims_congr (h : path.components = other.components) :
    schema.claims tree path = schema.claims tree other := by
  simp [claims, Path.same, h]

theorem firstClaim?_congr (h : path.components = other.components) :
    firstClaim? tree schemas path = firstClaim? tree schemas other := by
  unfold firstClaim?
  congr 1
  funext schema
  exact claims_congr h

theorem firstClaim?_append_singleton :
    firstClaim? tree (schemas ++ [schema]) path =
      (firstClaim? tree schemas path).or (if schema.claims tree path then some schema else none) := by
  unfold firstClaim?
  rw [List.find?_append, List.find?_singleton]

theorem exists_planned_of_firstClaim? (h : firstClaim? tree schemas path = some schema) :
    schema ∈ schemas ∧ ∃ file, schema.planned? tree = some file := by
  have hc : schema.claims tree path = true := List.find?_some h
  obtain ⟨file, hf, -⟩ := (Option.any_eq_true _ _).1 hc
  exact ⟨List.mem_of_find?_eq_some h, file, hf⟩

theorem verdicts_append_singleton :
    verdicts tree (schemas ++ [schema]) =
      verdicts tree schemas ++ [(schema, verdict tree schemas schema)] := by
  unfold verdicts
  rw [List.zipIdx_append, List.map_append]
  congr 1
  · refine List.map_congr_left fun ⟨earlier, place⟩ hm => ?_
    have hlt : place < schemas.length := List.snd_lt_of_mem_zipIdx hm
    simp only [List.take_append_of_le_length (Nat.le_of_lt hlt)]
  · simp

end SchemaFile

namespace Plan

open SchemaFile

variable {plan : Plan} {file first : PlannedFile} {path : Path}

-- ---------------------------------------------------------------------------
-- Adding a file
-- ---------------------------------------------------------------------------

def Distinct (plan : Plan) : Prop :=
  plan.files.Pairwise fun file other => ¬file.path.same other.path

theorem file?_eq_some (h : plan.file? path = some file) :
    file ∈ plan.files ∧ file.path.components = path.components := by
  have hs := List.find?_some h
  exact ⟨List.mem_of_find?_eq_some h, Path.same_iff.1 hs⟩

theorem file?_eq_none (h : plan.file? path = none) (hm : file ∈ plan.files) :
    file.path.components ≠ path.components := fun he =>
  List.find?_eq_none.1 h file hm (Path.same_iff.2 he)

theorem supportSlot?_eq_none
    (h : ∀ other ∈ plan.files, other.path.components = file.path.components →
      other.source ≠ .support) : plan.supportSlot? file = none := by
  unfold supportSlot?
  split
  · rfl
  · refine List.findIdx?_eq_none_iff.2 fun other hm => ?_
    by_cases hs : other.path.components = file.path.components
    · simp [h other hm hs]
    · simp [Path.same, hs]

theorem add_of_file?_eq_none (h : plan.file? file.path = none) :
    plan.add file = { plan with files := plan.files ++ [file] } := by
  have hs : plan.supportSlot? file = none :=
    supportSlot?_eq_none fun other hm he => absurd he (file?_eq_none h hm)
  simp [add, hs, h]

theorem foldl_add_of_distinct {files : List PlannedFile}
    (h : ({ plan with files := plan.files ++ files } : Plan).Distinct) :
    files.foldl add plan = { plan with files := plan.files ++ files } := by
  induction files generalizing plan with
  | nil => simp
  | cons file rest ih =>
    have hnone : plan.file? file.path = none := by
      refine List.find?_eq_none.2 fun other hm => ?_
      exact (List.pairwise_append.1 h).2.2 other hm file List.mem_cons_self
    rw [List.foldl_cons, add_of_file?_eq_none hnone, ih (by simpa using h)]
    simp

theorem Distinct.split (hd : plan.Distinct) (h : plan.file? path = some first) :
    ∃ front back, plan.files = front ++ first :: back ∧
      ∀ other, other ∈ front ∨ other ∈ back → other.path.components ≠ path.components := by
  obtain ⟨hm, hp⟩ := file?_eq_some h
  obtain ⟨front, back, hf⟩ := List.append_of_mem hm
  refine ⟨front, back, hf, fun other ho he => ?_⟩
  rw [Distinct, hf, List.pairwise_append, List.pairwise_cons] at hd
  rcases ho with ho | ho
  · exact hd.2.2 other ho first List.mem_cons_self (Path.same_iff.2 (he.trans hp.symm))
  · exact hd.2.1.1 other ho (Path.same_iff.2 (hp.trans he.symm))

theorem Distinct.file?_of_mem (hd : plan.Distinct) (hm : file ∈ plan.files) :
    plan.file? file.path = some file := by
  cases hf : plan.file? file.path with
  | none => exact absurd rfl (file?_eq_none hf hm)
  | some first =>
    obtain ⟨front, back, hfiles, hne⟩ := hd.split hf
    rw [hfiles, List.mem_append, List.mem_cons] at hm
    rcases hm with hm | rfl | hm
    · exact absurd rfl (hne file (.inl hm))
    · rfl
    · exact absurd rfl (hne file (.inr hm))

theorem add_of_schema (hd : plan.Distinct) (h : plan.file? file.path = some first)
    (hs : first.source ≠ .support) : plan.add file = plan.refuse file first := by
  obtain ⟨front, back, hf, hne⟩ := hd.split h
  have hslot : plan.supportSlot? file = none := by
    refine supportSlot?_eq_none fun other hm he => ?_
    rw [hf, List.mem_append, List.mem_cons] at hm
    rcases hm with hm | rfl | hm
    · exact absurd he (hne other (.inl hm))
    · exact hs
    · exact absurd he (hne other (.inr hm))
  simp [add, hslot, h]

theorem add_of_support (hd : plan.Distinct) (h : plan.file? file.path = some first)
    (hs : first.source = .support) (hfile : file.source ≠ .support) :
    ∃ front back, plan.files = front ++ first :: back ∧
      (∀ other, other ∈ front ∨ other ∈ back →
        other.path.components ≠ file.path.components) ∧
      plan.add file = { plan with files := front ++ file :: back } := by
  obtain ⟨front, back, hf, hne⟩ := hd.split h
  have hslot : plan.supportSlot? file = some front.length := by
    have hfront : front.findIdx? (fun other =>
        other.path.same file.path && other.source = .support) = none :=
      List.findIdx?_eq_none_iff.2 fun other hm => by simp [Path.same, hne other (.inl hm)]
    simp [supportSlot?, hfile, hf, List.findIdx?_append, List.findIdx?_cons, hfront, hs,
      Path.same_iff.2 (file?_eq_some h).2]
  refine ⟨front, back, hf, hne, ?_⟩
  simp [add, hslot, hf]

-- ---------------------------------------------------------------------------
-- Plans of schemas
-- ---------------------------------------------------------------------------

/-- What a plan holds after some schemas have been added to support files. -/
structure Follows (tree : FileTree) (support : List PlannedFile) (schemas : List SchemaFile)
    (plan : Plan) : Prop where
  distinct : plan.Distinct
  file?_eq (path : Path) : plan.file? path =
    ((firstClaim? tree schemas path).bind (·.planned? tree)).or (support.find? (·.path.same path))
  perm : (plan.files.filter (·.source ≠ .support)).Perm
    ((verdicts tree schemas).filterMap kept?)
  skipped_eq : plan.skipped = (verdicts tree schemas).filterMap skipped?

namespace Follows

variable {tree : FileTree} {support : List PlannedFile} {schemas : List SchemaFile}
  {schema : SchemaFile}

theorem start (hd : support.Pairwise fun file other => ¬file.path.same other.path)
    (hs : ∀ file ∈ support, file.source = .support) :
    Follows tree support [] { files := support } where
  distinct := hd
  file?_eq path := rfl
  perm := by
    rw [List.filter_eq_nil_iff.2 fun file hm => by simp [hs file hm]]
    exact .nil
  skipped_eq := rfl

theorem file?_of_firstClaim? (h : Follows tree support schemas plan)
    (hc : firstClaim? tree schemas path = some schema) :
    ∃ file, plan.file? path = some file ∧ schema.planned? tree = some file ∧
      file.source = .schema schema.kind schema.path := by
  obtain ⟨-, file, hf⟩ := exists_planned_of_firstClaim? hc
  exact ⟨file, by simp [h.file?_eq, hc, hf], hf, source_of_planned? hf⟩

theorem skip {reason : SkipReason} (h : Follows tree support schemas plan)
    (hv : verdict tree schemas schema = .error reason)
    (hc : ∀ path, firstClaim? tree (schemas ++ [schema]) path = firstClaim? tree schemas path) :
    Follows tree support (schemas ++ [schema]) (plan.skip schema.path reason) where
  distinct := h.distinct
  file?_eq path := (hc path).symm ▸ h.file?_eq path
  perm := by
    rw [verdicts_append_singleton, hv, List.filterMap_append, List.filterMap_cons_none rfl,
      List.filterMap_nil, List.append_nil]
    exact h.perm
  skipped_eq := by
    rw [verdicts_append_singleton, hv, List.filterMap_append, ← h.skipped_eq]
    rfl

theorem put {after : Plan} (h : Follows tree support schemas plan)
    (hv : verdict tree schemas schema = .ok file) (hp : schema.planned? tree = some file)
    (hnone : firstClaim? tree schemas file.path = none) (hd : after.Distinct)
    (hfile : ∀ path, after.file? path =
      if file.path.same path then some file else plan.file? path)
    (hperm : (after.files.filter (·.source ≠ .support)).Perm
      (file :: plan.files.filter (·.source ≠ .support)))
    (hs : after.skipped = plan.skipped) :
    Follows tree support (schemas ++ [schema]) after where
  distinct := hd
  file?_eq path := by
    have hc : schema.claims tree path = file.path.same path := by simp [claims, hp]
    rw [hfile, firstClaim?_append_singleton, hc]
    by_cases he : file.path.same path
    · rw [← firstClaim?_congr (Path.same_iff.1 he), hnone]
      simp [he, hp]
    · simp [he, h.file?_eq]
  perm := by
    rw [verdicts_append_singleton, hv, List.filterMap_append]
    exact hperm.trans ((h.perm.cons file).trans (List.perm_append_singleton _ _).symm)
  skipped_eq := by
    rw [verdicts_append_singleton, hv, List.filterMap_append, ← h.skipped_eq, hs]
    simp [skipped?]

theorem put_last (h : Follows tree support schemas plan)
    (hv : verdict tree schemas schema = .ok file) (hp : schema.planned? tree = some file)
    (hnone : firstClaim? tree schemas file.path = none) (hf : plan.file? file.path = none) :
    Follows tree support (schemas ++ [schema]) (plan.add file) := by
  have hsrc : file.source ≠ .support := by simp [source_of_planned? hp]
  rw [add_of_file?_eq_none hf]
  refine h.put hv hp hnone ?_ (fun path => ?_) ?_ rfl
  · refine List.pairwise_append.2 ⟨h.distinct, List.pairwise_singleton .., ?_⟩
    rintro other ho last hlast hsame
    rw [List.mem_singleton.1 hlast] at hsame
    exact file?_eq_none hf ho (Path.same_iff.1 hsame)
  · simp only [file?, List.find?_append, List.find?_singleton]
    by_cases he : file.path.same path
    · have hnone : plan.files.find? (·.path.same path) = none :=
        List.find?_eq_none.2 fun other ho hsame =>
          file?_eq_none hf ho ((Path.same_iff.1 hsame).trans (Path.same_iff.1 he).symm)
      simp [he, hnone]
    · simp [he]
  · have hkept : [file].filter (·.source ≠ .support) = [file] := by simp [hsrc]
    rw [List.filter_append, hkept]
    exact List.perm_append_singleton _ _

theorem put_instead (h : Follows tree support schemas plan)
    (hv : verdict tree schemas schema = .ok file) (hp : schema.planned? tree = some file)
    (hnone : firstClaim? tree schemas file.path = none) (hf : plan.file? file.path = some first)
    (hs : first.source = .support) : Follows tree support (schemas ++ [schema]) (plan.add file) := by
  have hsrc : file.source ≠ .support := by simp [source_of_planned? hp]
  have hsame : first.path.components = file.path.components := (file?_eq_some hf).2
  obtain ⟨front, back, hfiles, hne, hadd⟩ := add_of_support h.distinct hf hs hsrc
  have hd : plan.Distinct := h.distinct
  rw [Distinct, hfiles, List.pairwise_append, List.pairwise_cons] at hd
  rw [hadd]
  refine h.put hv hp hnone ?_ (fun path => ?_) ?_ rfl
  · refine List.pairwise_append.2 ⟨hd.1, List.pairwise_cons.2 ⟨fun other ho hw => ?_, hd.2.1.2⟩, ?_⟩
    · exact hne other (.inr ho) (Path.same_iff.1 hw).symm
    · intro other ho last hlast hw
      rcases List.mem_cons.1 hlast with rfl | hlast
      · exact hne other (.inl ho) (Path.same_iff.1 hw)
      · exact hd.2.2 other ho last (List.mem_cons_of_mem _ hlast) hw
  · have hfirst : first.path.same path = file.path.same path := by simp [Path.same, hsame]
    simp only [file?, hfiles, List.find?_append, List.find?_cons, hfirst]
    by_cases he : file.path.same path
    · have hfront : front.find? (·.path.same path) = none :=
        List.find?_eq_none.2 fun other ho hw =>
          hne other (.inl ho) ((Path.same_iff.1 hw).trans (Path.same_iff.1 he).symm)
      simp [he, hfront]
    · simp [he]
  · have hkept : (file :: back).filter (·.source ≠ .support) =
        file :: back.filter (·.source ≠ .support) := by simp [hsrc]
    have hgone : (first :: back).filter (·.source ≠ .support) =
        back.filter (·.source ≠ .support) := by simp [hs]
    rw [hfiles, List.filter_append, List.filter_append, hkept, hgone]
    exact List.perm_middle

theorem addFile (h : Follows tree support schemas plan)
    (hsupport : ∀ file ∈ support, file.source = .support) (schema : SchemaFile) :
    Follows tree support (schemas ++ [schema]) (plan.addFile tree schema) := by
  cases hp : schema.planned? tree with
  | none =>
    obtain ⟨error, he⟩ := exists_error_of_planned? hp
    simp only [Plan.addFile, he]
    refine h.skip (by simp [verdict, he]) fun path => ?_
    simp [firstClaim?_append_singleton, claims, hp]
  | some file =>
    rw [addFile_of_planned? hp]
    have hv := verdict_of_planned? hp schemas
    cases hc : firstClaim? tree schemas file.path with
    | some winner =>
      -- the path is claimed, so the plan has the file of a schema there and this one is skipped
      obtain ⟨first, hf, -, hsrc⟩ := h.file?_of_firstClaim? hc
      rw [add_of_schema h.distinct hf (by simp [hsrc])]
      simp only [refuse, FileSource.schemaPath?, source_of_planned? hp, hsrc, Option.getD_some]
      refine h.skip (by rw [hv, hc]) fun path => ?_
      rw [firstClaim?_append_singleton]
      by_cases hclaim : schema.claims tree path
      · have he : file.path.components = path.components := by
          simpa [claims, hp, Path.same] using hclaim
        simp [← firstClaim?_congr he, hc]
      · simp [hclaim]
    | none =>
      rw [hc] at hv
      -- no schema claims the path, so only a support file can be there
      cases hf : plan.file? file.path with
      | none => exact h.put_last hv hp hc hf
      | some first =>
        have hfirst : support.find? (·.path.same file.path) = some first := by
          simpa [hc] using (h.file?_eq file.path).symm.trans hf
        exact h.put_instead hv hp hc hf (hsupport first (List.mem_of_find?_eq_some hfirst))

theorem foldl_addFile (h : Follows tree support schemas plan)
    (hsupport : ∀ file ∈ support, file.source = .support) (others : List SchemaFile) :
    Follows tree support (schemas ++ others) (others.foldl (Plan.addFile tree) plan) := by
  induction others generalizing schemas plan with
  | nil => simpa using h
  | cons schema others ih => simpa using ih (h.addFile hsupport schema)

theorem length_files_add_skipped (h : Follows tree support schemas plan) :
    (plan.files.filter (·.source ≠ .support)).length + plan.skipped.length = schemas.length := by
  have hlength : (verdicts tree schemas).length = schemas.length := by
    simp [verdicts]
  rw [h.perm.length_eq, h.skipped_eq, ← hlength]
  generalize verdicts tree schemas = all
  induction all with
  | nil => rfl
  | cons verdict rest ih =>
    obtain ⟨schema, verdict⟩ := verdict
    cases verdict with
    | error reason =>
      simp only [List.filterMap_cons, kept?, skipped?, List.length_cons]
      omega
    | ok file =>
      simp only [List.filterMap_cons, kept?, skipped?, List.length_cons]
      omega

theorem winner_of_collision (h : Follows tree support schemas plan) {entry : SkippedSchema}
    {output claimed : Path} (hm : entry ∈ plan.skipped)
    (hr : entry.reason = .collision output claimed) :
    ∃ winner ∈ schemas, winner.path = claimed ∧
      ∃ file, plan.file? output = some file ∧ file.source = .schema winner.kind winner.path := by
  -- the entry comes from the verdict on a schema, which looks at the schemas before it
  rw [h.skipped_eq] at hm
  obtain ⟨⟨schema, result⟩, hv, hs⟩ := List.mem_filterMap.1 hm
  obtain ⟨⟨other, place⟩, -, he⟩ := List.mem_map.1 hv
  simp only [Prod.mk.injEq] at he
  obtain ⟨rfl, rfl⟩ := he
  cases hp : other.planned? tree with
  | none =>
    obtain ⟨error, he⟩ := exists_error_of_planned? hp
    simp only [verdict, he, skipped?, Option.some.injEq] at hs
    subst hs
    cases hr
  | some file =>
    rw [verdict_of_planned? hp] at hs
    cases hc : firstClaim? tree (schemas.take place) file.path with
    | none => simp [hc, skipped?] at hs
    | some winner =>
      simp only [hc, skipped?, Option.some.injEq] at hs
      subst hs
      cases hr
      have hall : firstClaim? tree schemas file.path = some winner :=
        (List.take_prefix place schemas).find?_eq_some hc
      obtain ⟨first, hf, -, hsrc⟩ := h.file?_of_firstClaim? hall
      exact ⟨winner, (exists_planned_of_firstClaim? hall).1, rfl, first, hf, hsrc⟩

end Follows

end Plan

namespace Project

open SchemaFile

def supportFiles (project : Project) : List PlannedFile :=
  if project.settings.output.writeSupport then SupportFile.all.map .ofSupport else []

theorem support_eq : Plan.support = { files := SupportFile.all.map .ofSupport } :=
  Plan.foldl_add_of_distinct (by unfold Plan.Distinct; decide +kernel)

theorem plan_eq (project : Project) (tree : FileTree) :
    project.plan tree =
      (project.schemaFiles tree).foldl (Plan.addFile tree) { files := project.supportFiles } := by
  unfold plan supportFiles
  split
  · rw [support_eq]
  · rfl

theorem plan_follows (project : Project) (tree : FileTree) :
    (project.plan tree).Follows tree project.supportFiles (project.schemaFiles tree) := by
  have hdistinct : project.supportFiles.Pairwise fun file other => ¬file.path.same other.path := by
    unfold supportFiles
    split
    · decide +kernel
    · exact .nil
  have hsource : ∀ file ∈ project.supportFiles, file.source = .support := by
    unfold supportFiles
    split
    · decide +kernel
    · simp
  have hnone : Plan.Follows tree project.supportFiles [] { files := project.supportFiles } :=
    .start hdistinct hsource
  have hfollows := hnone.foldl_addFile hsource (project.schemaFiles tree)
  rw [List.nil_append] at hfollows
  rw [plan_eq]
  exact hfollows

/-- At each path a plan has the file of the first schema that goes there, or else the support file of
that name. Of every schema there is one file in the plan or one entry among the skipped ones, which
stand in order; a collision names the schema whose file is in the plan. -/
theorem plan_first_claims (project : Project) (tree : FileTree) :
    let plan := project.plan tree
    let schemas := project.schemaFiles tree
    plan.files.Pairwise (fun file other => ¬file.path.same other.path) ∧
      (∀ path, plan.file? path =
        ((firstClaim? tree schemas path).bind (·.planned? tree)).or
          (project.supportFiles.find? (·.path.same path))) ∧
      (plan.files.filter (·.source ≠ .support)).Perm ((verdicts tree schemas).filterMap kept?) ∧
      plan.skipped = (verdicts tree schemas).filterMap skipped? ∧
      (plan.files.filter (·.source ≠ .support)).length + plan.skipped.length = schemas.length ∧
      ∀ entry ∈ plan.skipped, ∀ output claimed, entry.reason = .collision output claimed →
        ∃ winner ∈ schemas,
          (∃ file, plan.file? output = some file ∧
            file.source = .schema winner.kind winner.path) ∧
          entry.message = "Output collision: " ++ Text.doubleQuoted output.text
            ++ " already produced by " ++ Text.doubleQuoted winner.path.text := by
  have h := project.plan_follows tree
  refine ⟨h.distinct, h.file?_eq, h.perm, h.skipped_eq, h.length_files_add_skipped, ?_⟩
  intro entry hm output claimed hr
  obtain ⟨winner, hw, rfl, hfile⟩ := h.winner_of_collision hm hr
  exact ⟨winner, hw, hfile, by simp only [SkippedSchema.message, hr]⟩

end Project

end ContentTypes
