import ContentTypes.Proofs.Declaration.Unit

/-!
# Distinct names in a file

A unit declares its name and its flat name, and its imports bind others. This module says exactly when
these names are pairwise different and the built-in `Date` is not among them. An alias removes most
clashes, but it may itself be in use, and media has none in a component file of the name `Media`.
-/

namespace ContentTypes.Declaration

open Schema (Attribute)

namespace GeneratedUnit

/-- The names that the file of a unit brings into scope. -/
def scopeNames (unit : GeneratedUnit) : List String :=
  unit.name :: flatName unit.name :: unit.importedNames

end GeneratedUnit

/-- The names that an attribute list and its declaration ask for, before any alias of a component. -/
def requestedNames (kind : ContentKind) (name : String) (attributes : List (String × Attribute)) :
    List String :=
  name :: (boundNames kind attributes ++ componentNames attributes)

variable {kind : ContentKind} {name part : String} {attributes : List (String × Attribute)}
variable {reference reference' : Reference}

theorem mem_requestedNames : part ∈ requestedNames kind name attributes ↔
    part = name ∨ (∃ entry ∈ entries kind attributes, entry.nested = part) ∨
      part ∈ componentNames attributes := by
  simp [requestedNames, mem_boundNames]

-- ---------------------------------------------------------------------------
-- Names of references
-- ---------------------------------------------------------------------------

namespace GeneratedUnit

theorem nodup_importedNames
    (h : ∀ reference ∈ foreignReferences kind name attributes,
      ∀ reference' ∈ foreignReferences kind name attributes,
        reference.nested = reference'.nested → reference = reference') :
    (ofAttributes kind name attributes).importedNames.Nodup := by
  rw [importedNames_eq]
  refine isTidy_imports.nodup_bindings.map_on ?_
  rintro ⟨path, symbol⟩ hbind ⟨path', symbol'⟩ hbind' (hlocal : symbol.localName = symbol'.localName)
  obtain ⟨reference, href, rfl, hsymbol⟩ := mem_bindings_imports.1 hbind
  obtain ⟨reference', href', rfl, hsymbol'⟩ := mem_bindings_imports.1 hbind'
  have hformed := isFormed_of_mem_foreignReferences href
  have hformed' := isFormed_of_mem_foreignReferences href'
  have hnested : reference.nested = reference'.nested := by
    rcases hformed.mem_locals.1 (List.mem_map_of_mem hsymbol) with hs | hs <;>
      rcases hformed'.mem_locals.1 (List.mem_map_of_mem hsymbol') with hs' | hs'
    · rw [← hs, hlocal, hs']
    · exact absurd (hs ▸ hlocal.trans hs') (ne_flatName hformed.nested.unseparated)
    · exact absurd (hs' ▸ hlocal.symm.trans hs) (ne_flatName hformed'.nested.unseparated)
    · exact flatName_injective (by rw [← hs, hlocal, hs'])
  obtain rfl := h reference href reference' href' hnested
  rw [List.inj_on_of_nodup_map hformed.nodup_locals hsymbol hsymbol' hlocal]

theorem path_eq_of_nodup_importedNames
    (h : (ofAttributes kind name attributes).importedNames.Nodup)
    (href : reference ∈ foreignReferences kind name attributes)
    (href' : reference' ∈ foreignReferences kind name attributes)
    (hnested : reference.nested = reference'.nested) : reference.need.path = reference'.need.path := by
  rw [importedNames_eq] at h
  obtain ⟨symbol, hsymbol, hlocal⟩ := List.mem_map.1
    ((isFormed_of_mem_foreignReferences href).mem_locals.2 (.inl rfl))
  obtain ⟨symbol', hsymbol', hlocal'⟩ := List.mem_map.1
    ((isFormed_of_mem_foreignReferences href').mem_locals.2 (.inl rfl))
  have hbind := mem_bindings_imports.2 ⟨reference, href, rfl, hsymbol⟩
  have hbind' := mem_bindings_imports.2 ⟨reference', href', rfl, hsymbol'⟩
  exact congrArg (·.1) (List.inj_on_of_nodup_map h hbind hbind' (by simp [hlocal, hlocal', hnested]))

theorem nodup_scopeNames_iff (hname : IsTypeName name) :
    (ofAttributes kind name attributes).scopeNames.Nodup ↔
      (∀ reference ∈ foreignReferences kind name attributes, reference.nested ≠ name) ∧
        (ofAttributes kind name attributes).importedNames.Nodup := by
  have hown : name ≠ flatName name := ne_flatName hname.unseparated
  simp only [scopeNames, ofAttributes_name, List.nodup_cons, List.mem_cons, not_or,
    mem_importedNames_of_isTypeName hname, flatName_mem_importedNames, not_exists, not_and]
  constructor
  · rintro ⟨⟨-, hnested⟩, -, hnodup⟩
    exact ⟨hnested, hnodup⟩
  · rintro ⟨hnested, hnodup⟩
    exact ⟨⟨hown, hnested⟩, hnested, hnodup⟩

end GeneratedUnit

-- ---------------------------------------------------------------------------
-- From distinct names to aliases that are not in use
-- ---------------------------------------------------------------------------

section

variable (hnested : ∀ reference ∈ foreignReferences kind name attributes, reference.nested ≠ name)

include hnested

theorem name_not_mem_boundNames (hkind : kind = .component) : name ∉ boundNames kind attributes := by
  intro hmem
  obtain ⟨entry, hentry, hentryName⟩ := mem_boundNames.1 hmem
  subst hkind
  exact hnested entry ((entry_mem_foreignReferences hentry).2 nofun) hentryName

theorem componentNamed_mem_of_taken (hname : IsTypeName name)
    (hpart : part ∈ componentNames attributes) (htaken : part ∈ takenNames kind name attributes) :
    (unitScope kind name attributes).componentNamed part ∈
      foreignReferences kind name attributes := by
  refine (componentNamed_mem_foreignReferences hname hpart).2 fun hkind heq => ?_
  rcases mem_takenNames.1 htaken with ⟨hentity, -⟩ | hbound
  · cases hkind.symm.trans hentity
  · exact name_not_mem_boundNames hnested hkind (heq ▸ hbound)

theorem append_component_ne_name (hname : IsTypeName name)
    (hpart : part ∈ componentNames attributes) (htaken : part ∈ takenNames kind name attributes) :
    part ++ "Component" ≠ name := by
  have halias : ((unitScope kind name attributes).componentNamed part).nested =
      part ++ "Component" := Scope.componentNamed_nested_of_mem htaken
  exact halias ▸ hnested _ (componentNamed_mem_of_taken hnested hname hpart htaken)

variable (hpath : ∀ reference ∈ foreignReferences kind name attributes,
  ∀ reference' ∈ foreignReferences kind name attributes,
    reference.nested = reference'.nested → reference.need.path = reference'.need.path)

include hpath

theorem append_component_not_mem_boundNames (hname : IsTypeName name)
    (hpart : part ∈ componentNames attributes) (htaken : part ∈ takenNames kind name attributes) :
    part ++ "Component" ∉ boundNames kind attributes := by
  intro hmem
  obtain ⟨entry, hentry, heq⟩ := mem_boundNames.1 hmem
  have hne := append_component_ne_name hnested hname hpart htaken
  have hforeign : entry ∈ foreignReferences kind name attributes :=
    (entry_mem_foreignReferences hentry).2 fun _ => heq ▸ hne
  have hsame := hpath entry hforeign _ (componentNamed_mem_of_taken hnested hname hpart htaken)
    (heq.trans (Scope.componentNamed_nested_of_mem htaken).symm)
  rw [Scope.componentNamed_path] at hsame
  exact (isEntry_of_mem_entries hentry).path_ne hsame

/-- A component whose name is the alias of another has no alias itself, so both would be imported by
this name. -/
theorem append_component_not_mem_componentNames (hname : IsTypeName name)
    (hpart : part ∈ componentNames attributes) (htaken : part ∈ takenNames kind name attributes) :
    part ++ "Component" ∉ componentNames attributes := by
  intro hother
  have hne := append_component_ne_name hnested hname hpart htaken
  have hfree : part ++ "Component" ∉ takenNames kind name attributes := by
    intro h
    rcases mem_takenNames.1 h with ⟨-, heq⟩ | hbound
    · exact hne heq
    · exact append_component_not_mem_boundNames hnested hpath hname hpart htaken hbound
  have hforeign : (unitScope kind name attributes).componentNamed (part ++ "Component") ∈
      foreignReferences kind name attributes :=
    (componentNamed_mem_foreignReferences hname hother).2 fun _ => hne
  have hsame := hpath _ (componentNamed_mem_of_taken hnested hname hpart htaken) _ hforeign
    ((Scope.componentNamed_nested_of_mem htaken).trans
      (Scope.componentNamed_nested_of_not_mem hfree).symm)
  rw [Scope.componentNamed_path, Scope.componentNamed_path, String.append_right_inj] at hsame
  simpa using congrArg String.length hsame

theorem append_component_not_mem_requestedNames (hname : IsTypeName name)
    (hpart : part ∈ componentNames attributes) (htaken : part ∈ takenNames kind name attributes) :
    part ++ "Component" ∉ requestedNames kind name attributes := by
  intro hmem
  rcases mem_requestedNames.1 hmem with heq | hentry | hother
  · exact append_component_ne_name hnested hname hpart htaken heq
  · exact append_component_not_mem_boundNames hnested hpath hname hpart htaken
      (mem_boundNames.2 hentry)
  · exact append_component_not_mem_componentNames hnested hpath hname hpart htaken hother

end

-- ---------------------------------------------------------------------------
-- From aliases that are not in use to distinct names
-- ---------------------------------------------------------------------------

section

variable (hown : kind = .component → name ∉ boundNames kind attributes)
variable (hunused : ∀ part ∈ componentNames attributes, part ∈ takenNames kind name attributes →
  part ++ "Component" ∉ requestedNames kind name attributes)

include hown hunused in
theorem nested_ne_name (hname : IsTypeName name)
    (h : reference ∈ foreignReferences kind name attributes) : reference.nested ≠ name := by
  intro heq
  rcases mem_references.1 (mem_foreignReferences.1 h).1 with hentry | ⟨part, hpart, rfl⟩
  · cases kind with
    | entity => exact (entry_mem_foreignReferences hentry).1 h rfl heq
    | component => exact hown rfl (mem_boundNames.2 ⟨reference, hentry, heq⟩)
  · rw [Scope.componentNamed_nested] at heq
    split at heq
    · rename_i htaken
      exact hunused part hpart htaken (mem_requestedNames.2 (.inl heq))
    · rename_i hfree
      subst heq
      cases kind with
      | entity => exact hfree (mem_takenNames.2 (.inl ⟨rfl, rfl⟩))
      | component => exact (componentNamed_mem_foreignReferences hname hpart).1 h rfl rfl

include hunused

theorem entry_nested_ne (h : reference ∈ entries kind attributes)
    (hpart : part ∈ componentNames attributes) :
    reference.nested ≠ ((unitScope kind name attributes).componentNamed part).nested := by
  rw [Scope.componentNamed_nested]
  split
  · rename_i htaken
    intro heq
    exact hunused part hpart htaken (mem_requestedNames.2 (.inr (.inl ⟨reference, h, heq⟩)))
  · rename_i hfree
    rintro rfl
    exact hfree (mem_takenNames.2 (.inr (mem_boundNames.2 ⟨reference, h, rfl⟩)))

theorem componentNamed_nested_inj {other : String} (hpart : part ∈ componentNames attributes)
    (hother : other ∈ componentNames attributes)
    (heq : ((unitScope kind name attributes).componentNamed part).nested =
      ((unitScope kind name attributes).componentNamed other).nested) : part = other := by
  rw [Scope.componentNamed_nested, Scope.componentNamed_nested] at heq
  split at heq <;> split at heq
  · exact (String.append_left_inj "Component").1 heq
  · rename_i htaken _
    subst heq
    exact absurd (mem_requestedNames.2 (.inr (.inr hother))) (hunused part hpart htaken)
  · rename_i _ htaken
    subst heq
    exact absurd (mem_requestedNames.2 (.inr (.inr hpart))) (hunused other hother htaken)
  · exact heq

theorem reference_eq_of_nested (h : reference ∈ references kind name attributes)
    (h' : reference' ∈ references kind name attributes) (heq : reference.nested = reference'.nested) :
    reference = reference' := by
  rcases mem_references.1 h with hentry | ⟨part, hpart, rfl⟩ <;>
    rcases mem_references.1 h' with hentry' | ⟨part', hpart', rfl⟩
  · exact (isEntry_of_mem_entries hentry).eq_of_nested (isEntry_of_mem_entries hentry') heq
  · exact absurd heq (entry_nested_ne hunused hentry hpart')
  · exact absurd heq.symm (entry_nested_ne hunused hentry' hpart)
  · rw [componentNamed_nested_inj hunused hpart hpart' heq]

end

-- ---------------------------------------------------------------------------
-- Built-in names
-- ---------------------------------------------------------------------------

theorem mem_scopeNames_iff (hname : IsTypeName name) (hpart : IsTypeName part)
    (hsuffix : ∀ stem : String, stem ++ "Component" ≠ part) :
    part ∈ (GeneratedUnit.ofAttributes kind name attributes).scopeNames ↔
      part ∈ requestedNames kind name attributes := by
  rw [GeneratedUnit.scopeNames, GeneratedUnit.ofAttributes_name, List.mem_cons, List.mem_cons,
    or_iff_right (ne_flatName hpart.unseparated),
    GeneratedUnit.mem_importedNames_of_isTypeName hpart, mem_requestedNames]
  constructor
  · rintro (heq | ⟨reference, h, rfl⟩)
    · exact .inl heq
    · rcases mem_references.1 (mem_foreignReferences.1 h).1 with hentry | ⟨other, hother, rfl⟩
      · exact .inr (.inl ⟨reference, hentry, rfl⟩)
      · rw [Scope.componentNamed_nested] at hsuffix ⊢
        split at hsuffix
        · exact absurd rfl (hsuffix other)
        · rename_i hfree
          exact .inr (.inr (by rwa [if_neg hfree]))
  · intro h
    by_cases heq : part = name
    · exact .inl heq
    refine .inr ?_
    have hbound : ∀ entry ∈ entries kind attributes, entry.nested = part →
        ∃ reference ∈ foreignReferences kind name attributes, reference.nested = part := by
      rintro entry hentry rfl
      exact ⟨entry, (entry_mem_foreignReferences hentry).2 fun _ => heq, rfl⟩
    rcases h with h | ⟨entry, hentry, hnested⟩ | h
    · exact absurd h heq
    · exact hbound entry hentry hnested
    -- a component has no name of its own in the file if that is taken, but then what took it is in
    -- scope
    · by_cases htaken : part ∈ takenNames kind name attributes
      · rcases mem_takenNames.1 htaken with ⟨-, hown⟩ | hmem
        · exact absurd hown heq
        · obtain ⟨entry, hentry, hnested⟩ := mem_boundNames.1 hmem
          exact hbound entry hentry hnested
      · exact ⟨_, (componentNamed_mem_foreignReferences hname h).2 fun _ => heq,
          Scope.componentNamed_nested_of_not_mem htaken⟩

theorem append_component_ne_date (stem : String) : stem ++ "Component" ≠ "Date" := by
  intro h
  have hlength := congrArg String.length h
  rw [String.length_append] at hlength
  have hdate : "Date".length = 4 := by decide
  have hcomponent : "Component".length = 9 := by decide
  omega

-- ---------------------------------------------------------------------------
-- When no two names clash
-- ---------------------------------------------------------------------------

/-- The names that a file brings into scope are pairwise different, and none is that of the type of
moments, exactly when
* no relation or media of a component file has the name of the file's own type,
* no component has an alias that is asked for by another name of the file, and
* nothing is called `Date`. -/
theorem scopeNames_distinct_iff (kind : ContentKind) (text : String)
    (attributes : List (String × Attribute)) :
    ((GeneratedUnit.ofAttributes kind (pascalCase text) attributes).scopeNames.Nodup ∧
        "Date" ∉ (GeneratedUnit.ofAttributes kind (pascalCase text) attributes).scopeNames) ↔
      (kind = .component → pascalCase text ∉ boundNames kind attributes) ∧
        (∀ part ∈ componentNames attributes, part ∈ takenNames kind (pascalCase text) attributes →
          part ++ "Component" ∉ requestedNames kind (pascalCase text) attributes) ∧
        "Date" ∉ requestedNames kind (pascalCase text) attributes := by
  have hname := isTypeName_pascalCase text
  rw [mem_scopeNames_iff hname (by decide +kernel) append_component_ne_date,
    GeneratedUnit.nodup_scopeNames_iff hname, ← and_assoc]
  refine and_congr_left fun _ => ?_
  constructor
  · rintro ⟨hnested, hnodup⟩
    have hpath : ∀ reference ∈ foreignReferences kind (pascalCase text) attributes,
        ∀ reference' ∈ foreignReferences kind (pascalCase text) attributes,
          reference.nested = reference'.nested → reference.need.path = reference'.need.path :=
      fun _ h _ h' => GeneratedUnit.path_eq_of_nodup_importedNames hnodup h h'
    exact ⟨name_not_mem_boundNames hnested, fun part hpart htaken =>
      append_component_not_mem_requestedNames hnested hpath hname hpart htaken⟩
  · rintro ⟨hown, hunused⟩
    refine ⟨fun reference h => nested_ne_name hown hunused hname h,
      GeneratedUnit.nodup_importedNames fun reference h reference' h' heq => ?_⟩
    exact reference_eq_of_nested hunused (mem_foreignReferences.1 h).1 (mem_foreignReferences.1 h').1
      heq

/-- Media has no alias: a component file of its name declares `Media` and imports it. -/
example : ¬(GeneratedUnit.ofAttributes .component "Media"
    [("cover", ⟨.media false, none⟩)]).scopeNames.Nodup := by
  decide +kernel

end ContentTypes.Declaration
