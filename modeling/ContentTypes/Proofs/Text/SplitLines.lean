import ContentTypes.Text

/-!
# Lines of texts put together

Lines without breaks, each ended by a line feed, are the lines of the text that they make up. The
other way round, a line of a text without carriage returns is one without breaks that is ended by a
line feed or by the end of the text.
-/

namespace ContentTypes.Text

variable {text rest line body : List Char}

/-- There is no line end in the text. -/
def Unbroken (text : List Char) : Prop :=
  ∀ c ∈ text, c ≠ '\n' ∧ c ≠ '\r'

instance (text : List Char) : Decidable (Unbroken text) :=
  List.decidableBAll (fun c => c ≠ '\n' ∧ c ≠ '\r') text

theorem Unbroken.append (h : Unbroken text) (h' : Unbroken rest) : Unbroken (text ++ rest) :=
  List.forall_mem_append.2 ⟨h, h'⟩

theorem splitLines_cons {c : Char} (hline : c ≠ '\n') (hreturn : c ≠ '\r') :
    splitLines (c :: rest) = consFirst c (splitLines rest) := by
  rw [splitLines, if_neg (by simp [hline, hreturn])]
  simp [hreturn]

theorem splitLines_unbroken_append (rest : List Char) (h : Unbroken body) :
    splitLines (body ++ '\n' :: rest) = (body ++ ['\n']) :: splitLines rest := by
  induction body with
  | nil => simp [splitLines]
  | cons c body ih =>
    obtain ⟨hc, hbody⟩ := List.forall_mem_cons.1 h
    rw [List.cons_append, splitLines_cons hc.1 hc.2, ih hbody]
    rfl

def ended (bodies : List (List Char)) : List (List Char) :=
  bodies.map (· ++ ['\n'])

theorem splitLines_ended {bodies : List (List Char)} (h : ∀ body ∈ bodies, Unbroken body) :
    splitLines (ended bodies).flatten = ended bodies := by
  induction bodies with
  | nil => rfl
  | cons body bodies ih =>
    obtain ⟨hbody, h⟩ := List.forall_mem_cons.1 h
    have hsplit := splitLines_unbroken_append (ended bodies).flatten hbody
    rw [ih h] at hsplit
    simpa [ended] using hsplit

theorem exists_body_of_mem (htext : '\r' ∉ text) (h : line ∈ splitLines text) :
    ∃ body, Unbroken body ∧ (line = body ++ ['\n'] ∨ line = body) := by
  fun_induction splitLines text generalizing line with
  | case1 => simp at h
  | case2 rest ih => simp at htext
  | case3 c rest hcr hc ih =>
    obtain ⟨hne, hrest⟩ : '\r' ≠ c ∧ '\r' ∉ rest := by simpa using htext
    rcases List.mem_cons.1 h with rfl | h
    · exact ⟨[], by simp [Unbroken], .inl (by simp [hc.resolve_right (Ne.symm hne)])⟩
    · exact ih hrest h
  | case4 c rest hcr hc ih =>
    obtain ⟨-, hrest⟩ : '\r' ≠ c ∧ '\r' ∉ rest := by simpa using htext
    have hbreak : c ≠ '\n' ∧ c ≠ '\r' := not_or.1 hc
    cases hlines : splitLines rest with
    | nil =>
      obtain rfl : line = [c] := by simpa [hlines, consFirst] using h
      exact ⟨[c], by simpa [Unbroken] using hbreak, .inr rfl⟩
    | cons first lines =>
      rw [hlines] at h ih
      rcases List.mem_cons.1 h with rfl | h
      · obtain ⟨body, hbody, hfirst⟩ := ih hrest (List.mem_cons_self ..)
        refine ⟨c :: body, List.forall_mem_cons.2 ⟨hbreak, hbody⟩, ?_⟩
        exact hfirst.imp (fun hf => by simp [hf]) fun hf => by rw [hf]
      · exact ih hrest (List.mem_cons_of_mem _ h)

end ContentTypes.Text
