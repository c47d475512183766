import ContentTypes.Proofs.Project.Discovery
import ContentTypes.Proofs.Project.Planning

/-!
# Schemas that cannot be used

A schema that cannot be used adds an entry to those that are skipped and leaves the rest of a plan
alone. So the plan without these entries is that of the other schemas: `foldl_addFile_keeping`. What is
done to the file of such a schema changes no other part of a plan: `plan_of_broken_file`.
-/

namespace ContentTypes

namespace Plan

variable {keep : Path → Bool} {plan : Plan} {file first : PlannedFile} {path : Path}
  {tree : FileTree} {schema : SchemaFile} {schemas : List SchemaFile}

def keeping (keep : Path → Bool) (plan : Plan) : Plan :=
  { plan with skipped := plan.skipped.filter fun entry => keep entry.path }

theorem files_keeping : (plan.keeping keep).files = plan.files := rfl

theorem keeping_skip_of_kept {reason : SkipReason} (h : keep path = true) :
    (plan.skip path reason).keeping keep = (plan.keeping keep).skip path reason := by
  simp [keeping, skip, h]

theorem keeping_skip_of_not_kept {reason : SkipReason} (h : keep path = false) :
    (plan.skip path reason).keeping keep = plan.keeping keep := by
  simp [keeping, skip, h]

theorem keeping_add (h : ∀ schema, file.source.schemaPath? = some schema → keep schema = true) :
    (plan.add file).keeping keep = (plan.keeping keep).add file := by
  have hslot : (plan.keeping keep).supportSlot? file = plan.supportSlot? file := rfl
  have hfile : (plan.keeping keep).file? file.path = plan.file? file.path := rfl
  unfold add
  rw [hslot, hfile]
  cases plan.supportSlot? file with
  | some slot => rfl
  | none =>
    cases plan.file? file.path with
    | none => rfl
    | some first =>
      simp only [refuse]
      cases hs : file.source.schemaPath? with
      | none => rfl
      | some schema => exact keeping_skip_of_kept (h schema hs)

theorem keeping_addFile_of_kept (h : keep schema.path = true) :
    (plan.addFile tree schema).keeping keep = (plan.keeping keep).addFile tree schema := by
  unfold addFile
  split
  · refine keeping_add fun path hp => ?_
    cases hp
    exact h
  · exact keeping_skip_of_kept h

theorem keeping_addFile_of_not_kept (hbroken : schema.planned? tree = none)
    (h : keep schema.path = false) :
    (plan.addFile tree schema).keeping keep = plan.keeping keep := by
  obtain ⟨error, he⟩ := SchemaFile.exists_error_of_planned? hbroken
  simp only [addFile, he]
  exact keeping_skip_of_not_kept h

theorem foldl_addFile_keeping
    (hbroken : ∀ schema ∈ schemas, keep schema.path = false → schema.planned? tree = none) :
    (schemas.foldl (addFile tree) plan).keeping keep =
      (schemas.filter fun schema => keep schema.path).foldl (addFile tree) (plan.keeping keep) := by
  induction schemas generalizing plan with
  | nil => rfl
  | cons schema rest ih =>
    have hrest := fun other hm => hbroken other (List.mem_cons_of_mem _ hm)
    rw [List.foldl_cons, ih hrest, List.filter_cons]
    cases hk : keep schema.path with
    | true => rw [if_pos rfl, List.foldl_cons, keeping_addFile_of_kept hk]
    | false =>
      have hnone := hbroken schema List.mem_cons_self hk
      rw [if_neg Bool.false_ne_true, keeping_addFile_of_not_kept hnone hk]

end Plan

namespace Project

variable {project : Project} {tree other : FileTree} {places : List Location} {path : Path}

/-- Whether the schemas that are found at some places cannot be used. -/
def BrokenAt (project : Project) (tree : FileTree) (places : List Location) : Prop :=
  ∀ schema ∈ project.schemaFiles tree, tree.destination schema.path ∈ places →
    schema.planned? tree = none

instance (project : Project) (tree : FileTree) (places : List Location) :
    Decidable (project.BrokenAt tree places) :=
  inferInstanceAs (Decidable (∀ schema ∈ project.schemaFiles tree, _ → _))

theorem keeping_plan_of_brokenAt (h : project.BrokenAt tree places) :
    (project.plan tree).keeping (tree.avoids places) =
      ((project.schemaFiles tree).filter fun schema => tree.avoids places schema.path).foldl
        (Plan.addFile tree) { files := project.supportFiles } := by
  rw [plan_eq, Plan.foldl_addFile_keeping]
  · rfl
  · intro schema hm hp
    exact h schema hm (by simpa [FileTree.avoids] using hp)

theorem addFile_of_mem_schemaFiles (h : tree.Agrees places other) {schema : SchemaFile}
    (hm : schema ∈ project.schemaFiles tree) (hp : tree.avoids places schema.path = true)
    (plan : Plan) : plan.addFile other schema = plan.addFile tree schema := by
  unfold Plan.addFile Declaration.GeneratedUnit.ofFile
  rw [readText_of_mem_schemaFiles h hm hp]

theorem keeping_plan_of_agrees (h : tree.Agrees places other) (htree : project.BrokenAt tree places)
    (hother : project.BrokenAt other places) :
    (project.plan other).keeping (tree.avoids places) =
      (project.plan tree).keeping (tree.avoids places) := by
  have hplan := keeping_plan_of_brokenAt hother
  rw [h.avoids, schemaFiles_filter h] at hplan
  rw [hplan, keeping_plan_of_brokenAt htree]
  refine List.foldl_ext _ _ _ fun plan schema hm => ?_
  obtain ⟨hm, hp⟩ := List.mem_filter.1 hm
  exact addFile_of_mem_schemaFiles h hm hp plan

theorem avoids_of_mem_schemaFiles (h : ∀ place ∈ places, tree.get? place = none)
    {schema : SchemaFile} (hm : schema ∈ project.schemaFiles tree) :
    tree.avoids places schema.path = true := by
  obtain ⟨contents, hfile⟩ := exists_file_of_mem_schemaFiles hm
  exact FileTree.avoids_iff.2 fun hp => nomatch (h _ hp).symm.trans hfile

theorem brokenAt_of_none (h : ∀ place ∈ places, tree.get? place = none) :
    project.BrokenAt tree places := fun _ hm hp =>
  absurd hp (FileTree.avoids_iff.1 (avoids_of_mem_schemaFiles h hm))

theorem keeping_plan_of_none (h : ∀ place ∈ places, tree.get? place = none) :
    (project.plan tree).keeping (tree.avoids places) = project.plan tree := by
  rw [keeping_plan_of_brokenAt (brokenAt_of_none h), plan_eq,
    List.filter_eq_self.2 fun schema hm => avoids_of_mem_schemaFiles h hm]

/-- Removing a file whose schemas cannot be used, or writing something else there that cannot be used
either, changes neither the files of a plan nor what is said of the other schemas. -/
theorem plan_of_broken_file (hfile : tree.fileExists path = true)
    (hbroken : project.BrokenAt tree [tree.destination path]) :
    (∃ after, tree.removeAt path = .ok after ∧
      (project.plan after).files = (project.plan tree).files ∧
      (project.plan after).skipped = (project.plan tree).skipped.filter fun entry =>
        tree.destination entry.path ≠ tree.destination path) ∧
    ∀ contents, ∃ after, tree.writeBytes path contents = .ok after ∧
      (project.BrokenAt after [after.destination path] →
        (project.plan after).files = (project.plan tree).files ∧
        ((project.plan after).skipped.filter fun entry =>
            tree.destination entry.path ≠ tree.destination path) =
          (project.plan tree).skipped.filter fun entry =>
            tree.destination entry.path ≠ tree.destination path) := by
  have hkeep : ∀ plan : Plan, (plan.keeping (tree.avoids [tree.destination path])).skipped =
      plan.skipped.filter fun entry => tree.destination entry.path ≠ tree.destination path := by
    simp [Plan.keeping, FileTree.avoids]
  have hsame : ∀ after, tree.Agrees [tree.destination path] after →
      project.BrokenAt after [tree.destination path] →
      (project.plan after).files = (project.plan tree).files ∧
        ((project.plan after).skipped.filter fun entry =>
            tree.destination entry.path ≠ tree.destination path) =
          (project.plan tree).skipped.filter fun entry =>
            tree.destination entry.path ≠ tree.destination path := by
    intro after hagrees hstill
    have hplan := keeping_plan_of_agrees hagrees hbroken hstill
    have hfiles := congrArg Plan.files hplan
    rw [Plan.files_keeping, Plan.files_keeping] at hfiles
    exact ⟨hfiles, by rw [← hkeep, ← hkeep, hplan]⟩
  constructor
  · obtain ⟨after, hafter, hagrees, hnone⟩ := FileTree.agrees_removeAt hfile
    have hgone : ∀ place ∈ [tree.destination path], after.get? place = none := by
      intro place hplace
      rw [List.mem_singleton.1 hplace, hnone]
    obtain ⟨hfiles, hskipped⟩ := hsame after hagrees (brokenAt_of_none hgone)
    refine ⟨after, hafter, hfiles, ?_⟩
    have hself : (project.plan after).keeping (after.avoids [tree.destination path]) =
        project.plan after := keeping_plan_of_none hgone
    -- nothing is found at the place any more, so the plan has no entries of it to leave out
    rw [hagrees.avoids] at hself
    rw [← hskipped, ← hkeep, hself]
  · intro contents
    obtain ⟨after, hafter, hagrees, -⟩ := FileTree.agrees_writeBytes hfile contents
    refine ⟨after, hafter, fun hstill => hsame after hagrees ?_⟩
    rw [hagrees.destination] at hstill
    exact hstill

/-- A file that is no JSON is found as an entity and as a component, around another entity. -/
theorem plan_of_broken_file_found_twice :
    let project : Project := ⟨⟨"."⟩, {
      includes := [⟨"src/components/a/b.json"⟩, ⟨"tag.json"⟩]
      output := { writeSupport := false } }⟩
    let made := (FileTree.root.makeDirectories ⟨"src/components/a"⟩).1
    let valid := (made.writeText ⟨"tag.json"⟩
      "\x7b\"info\":\x7b\"singularName\":\"tag\"\x7d,\"attributes\":\x7b\x7d\x7d").toOption.getD made
    let tree := (valid.writeText ⟨"src/components/a/b.json"⟩ "[").toOption.getD valid
    let path : Path := ⟨"src/./components/a/b.json"⟩
    (tree.fileExists path = true ∧ project.BrokenAt tree [tree.destination path]) ∧
      ∃ after, tree.removeAt path = .ok after ∧
        (project.plan after).files = (project.plan tree).files ∧
        (project.plan after).skipped = (project.plan tree).skipped.filter fun entry =>
          tree.destination entry.path ≠ tree.destination path := by
  dsimp only
  refine and_iff_left_of_imp (fun h => ?_) |>.2 (by decide +kernel)
  exact (plan_of_broken_file h.1 h.2).1

end Project

end ContentTypes
