import ContentTypes.Proofs.FileTree.Children
import ContentTypes.Proofs.Path.Parent

/-!
# Where a path ends

A path with no pieces adds nothing but a slash, so what ends with a name behind another path ends with
that name: `steps_getLast?_of_join`. The name can be read off the components. Its extension is what stands
after its last dot, unless the dot is its first character: `extension?_join_name`.
-/

namespace ContentTypes.Path

variable {path root : Path} {name : FileName}

theorem mem_text_of_pieces_eq_nil (h : path.pieces = []) {c : Char} (hc : c ∈ path.text.toList) :
    c = '/' := by
  by_contra hslash
  obtain ⟨piece, hpiece, -⟩ := (mem_text_iff_pieces hslash).1 hc
  exact absurd (h ▸ hpiece) List.not_mem_nil

theorem endsWithSlash_join_of_pieces_eq_nil (h : path.pieces = [])
    (hne : (root.join path).text ≠ "") : (root.join path).endsWithSlash = true := by
  have hall : ∀ text : Path, text.pieces = [] → text.text ≠ "" → text.endsWithSlash = true := by
    intro text hnil hempty
    obtain ⟨front, last, hlast⟩ := (List.eq_nil_or_concat text.text.toList).resolve_left
      (mt String.toList_eq_nil_iff.1 hempty)
    have hslash : last = '/' := mem_text_of_pieces_eq_nil hnil (by simp [hlast])
    simp [endsWithSlash, hlast, hslash]
  unfold join at hne ⊢
  split
  · rename_i hroot
    rw [if_pos hroot] at hne
    exact hall path h hne
  · rename_i hroot
    obtain ⟨hrelative, -⟩ : path.isAbsolute = false ∧ root.text ≠ "" := by simpa using hroot
    -- a relative path without pieces has no text
    have hempty : path.text = "" := by
      by_contra htext
      obtain ⟨c, rest, hc⟩ := List.exists_cons_of_ne_nil (mt String.toList_eq_nil_iff.1 htext)
      have hslash : c = '/' := mem_text_of_pieces_eq_nil h (by simp [hc])
      simp [isAbsolute, hc, hslash] at hrelative
    split
    · rename_i hends
      simpa [hempty] using hends
    · simp [endsWithSlash, hempty]

theorem fileName?_of_name (h : path.steps.getLast? = some (.down name)) :
    path.fileName? = some name.text := by
  obtain ⟨parent, -, -, hcomponents⟩ := parent?_of_name h
  simp [fileName?, hcomponents]

/-- A path that ends with a name behind another one ends with it, unless it adds a slash alone. -/
theorem steps_getLast?_of_join (hs : (root.join path).endsWithSlash = false)
    (hne : (root.join path).text ≠ "")
    (h : (root.join path).steps.getLast? = some (.down name)) :
    path.steps.getLast? = some (.down name) := by
  cases ha : path.isAbsolute with
  | true =>
    have hjoin : root.join path = path := by simp [join, ha]
    rwa [hjoin] at h
  | false =>
    have hsteps : path.steps ≠ [] := by
      intro hnil
      have hpieces : path.pieces = [] := by
        rw [List.eq_nil_iff_forall_not_mem]
        intro piece hpiece
        obtain ⟨step, hstep⟩ := exists_step_of_mem_pieces hpiece
        have hm : step ∈ path.steps := List.mem_filterMap.2 ⟨piece, hpiece, hstep⟩
        exact absurd (hnil ▸ hm) List.not_mem_nil
      exact Bool.false_ne_true (hs.symm.trans (endsWithSlash_join_of_pieces_eq_nil hpieces hne))
    rwa [steps_join _ _ ha, List.getLast?_append_of_ne_nil _ hsteps] at h

-- ---------------------------------------------------------------------------
-- Extensions
-- ---------------------------------------------------------------------------

theorem suffix_of_cutExtension {text extension : List Char}
    (h : (cutExtension text).2 = some extension) : extension <:+ text := by
  unfold cutExtension at h
  dsimp only at h
  split at h
  · cases h
  · cases h
  · cases h
    rw [← List.reverse_prefix, List.reverse_reverse]
    exact List.takeWhile_prefix _

theorem suffix_of_extension? {extension : String} (hname : path.fileName? = some name.text)
    (h : path.extension? = some extension) : extension.toList <:+ name.text.toList := by
  unfold extension? at h
  rw [hname, Option.bind_eq_bind, Option.bind_some] at h
  obtain ⟨found, hfound, he⟩ := Option.bind_eq_some_iff.1 h
  cases he
  rw [String.toList_ofList]
  exact suffix_of_cutExtension hfound

theorem drop_length_takeWhile (p : Char → Bool) (text : List Char) :
    text.drop (text.takeWhile p).length = text.dropWhile p := by
  have hparts : (text.takeWhile p ++ text.dropWhile p).drop (text.takeWhile p).length =
      text.dropWhile p := List.drop_left
  rwa [List.takeWhile_append_dropWhile] at hparts

theorem cutExtension_eq_some_iff {name extension : List Char} (hdot : '.' ∉ extension) :
    (cutExtension name).2 = some extension ↔
      ∃ stem, stem ≠ [] ∧ name = stem ++ '.' :: extension := by
  -- the extension is looked for from the end of the name, so all parts are reversed
  unfold cutExtension
  dsimp only
  rw [drop_length_takeWhile]
  constructor
  · intro h
    split at h
    · cases h
    · cases h
    · rename_i d stem hmore hafter
      obtain rfl := Option.some.inj h
      have hd : d = '.' := by
        have hfirst := List.head?_dropWhile_not (fun c => decide (c ≠ '.')) name.reverse
        rw [hafter] at hfirst
        simpa using hfirst
      have hparts := List.takeWhile_append_dropWhile (p := fun c => decide (c ≠ '.')) (l := name.reverse)
      rw [hafter, hd] at hparts
      have hname := congrArg List.reverse hparts
      rw [List.reverse_reverse, List.reverse_append, List.reverse_cons, List.append_assoc,
        List.singleton_append] at hname
      exact ⟨stem.reverse, mt List.reverse_eq_nil_iff.1 hmore, hname.symm⟩
  · rintro ⟨stem, hstem, rfl⟩
    have hextension : ∀ c ∈ extension.reverse, decide (c ≠ '.') = true := by
      intro c hc
      rw [List.mem_reverse] at hc
      exact decide_eq_true fun hcdot => hdot (hcdot ▸ hc)
    have hreverse : (stem ++ '.' :: extension).reverse = extension.reverse ++ '.' :: stem.reverse := by
      simp
    rw [hreverse, List.takeWhile_append_of_pos hextension, List.dropWhile_append_of_pos hextension,
      List.takeWhile_cons_of_neg (by simp), List.dropWhile_cons_of_neg (by simp)]
    obtain ⟨c, rest, hrest⟩ := List.exists_cons_of_ne_nil (mt List.reverse_eq_nil_iff.1 hstem)
    simp [hrest]

theorem extension?_join_name {directory : Path} {name : FileName} {extension : String}
    (hdot : '.' ∉ extension.toList) :
    (directory.join ⟨name.text⟩).extension? = some extension ↔
      ∃ stem : String, stem ≠ "" ∧ name.text = stem ++ "." ++ extension := by
  have hsteps : (directory.join ⟨name.text⟩).steps.getLast? = some (.down name) := by
    rw [steps_join _ _ name.isAbsolute_text, name.steps_text, List.getLast?_concat]
  have hcut : (directory.join ⟨name.text⟩).extension? = some extension ↔
      (cutExtension name.text.toList).2 = some extension.toList := by
    simp only [extension?, fileName?_of_name hsteps, Option.bind_eq_bind, Option.bind_some,
      Option.bind_eq_some_iff, Option.pure_def, Option.some.injEq]
    constructor
    · rintro ⟨found, hfound, rfl⟩
      rw [hfound, String.toList_ofList]
    · exact fun hfound => ⟨_, hfound, String.ofList_toList⟩
  rw [hcut, cutExtension_eq_some_iff hdot]
  constructor
  · rintro ⟨stem, hstem, hname⟩
    exact ⟨String.ofList stem, by simpa using hstem, by simp [← String.toList_inj, hname]⟩
  · rintro ⟨stem, hstem, hname⟩
    exact ⟨stem.toList, by simpa using hstem, by simp [hname]⟩

end ContentTypes.Path
