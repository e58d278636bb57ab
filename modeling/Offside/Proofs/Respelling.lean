import Offside.Proofs.Spelling

/-!
# Respelling in front of a rest

How a table of spellings treats the start of a text whose end is not known. A part that no
spelling can start in is passed over, and a part that cannot come from what is put in was there
before.
-/

namespace Offside

namespace Apart

variable {part other : Text}

/-- A spelling that cannot start in a part is replaced behind it only. -/
theorem replaceAll_append (apart : Apart part other) (new rest : Text) :
    (Recognizer.fixed other).replaceAll (fun _ => new) (part ++ rest) =
      part ++ (Recognizer.fixed other).replaceAll (fun _ => new) rest := by
  induction part with
  | nil => rfl
  | cons char part ih =>
      have missing : ¬other <+: char :: (part ++ rest) :=
        apart.not_append_isPrefix (List.cons_ne_nil char part) rest
      rw [List.cons_append, replaceAll_fixed_cons new missing, ih apart.tail, List.cons_append]

/-- A part that cannot overlap with what is put in was there before. -/
theorem exists_of_isPrefix_replaceAll {old : Text} (apart : Apart part other)
    (nonempty : old ≠ []) {text : Text}
    (starts : part <+: (Recognizer.fixed old).replaceAll (fun _ => other) text) :
    ∃ rest, text = part ++ rest ∧ (Recognizer.fixed old).replaceAll (fun _ => other) text =
      part ++ (Recognizer.fixed old).replaceAll (fun _ => other) rest := by
  induction part generalizing text with
  | nil => exact ⟨text, rfl, rfl⟩
  | cons char part ih =>
      by_cases isHit : old <+: text
      · obtain ⟨rest, rfl⟩ := isHit
        rw [replaceAll_fixed_hit other nonempty] at starts
        exact absurd starts (apart.not_isPrefix_append (List.cons_ne_nil char part) _)
      · cases text with
        | nil =>
            rw [replaceAll_fixed_nil other nonempty] at starts
            cases List.prefix_nil.1 starts
        | cons first text =>
            rw [replaceAll_fixed_cons other isHit] at starts ⊢
            obtain ⟨rfl, startsBehind⟩ := List.cons_prefix_cons.1 starts
            obtain ⟨rest, rfl, behind⟩ := ih apart.tail startsBehind
            exact ⟨rest, rfl, congrArg (char :: ·) behind⟩

end Apart

section Tables

variable {table : List (String × String)} {part : Text}

theorem respellBy_append_of_apart
    (apart : ∀ spelling ∈ table, Apart part spelling.1.toList) (rest : Text) :
    respellBy table (part ++ rest) = part ++ respellBy table rest := by
  induction table generalizing rest with
  | nil => rfl
  | cons spelling table ih =>
      have here := (apart spelling List.mem_cons_self).replaceAll_append spelling.2.toList rest
      have tail := ih fun other member => apart other (List.mem_cons_of_mem spelling member)
      exact (congrArg (respellBy table) here).trans (tail _)

theorem exists_of_isPrefix_respellBy
    (nonempty : ∀ spelling ∈ table, spelling.1.toList ≠ [])
    (apart : ∀ spelling ∈ table, Apart part spelling.2.toList) {text : Text}
    (starts : part <+: respellBy table text) :
    ∃ rest, text = part ++ rest ∧ respellBy table text = part ++ respellBy table rest := by
  induction table generalizing text with
  | nil =>
      obtain ⟨rest, rfl⟩ := starts
      exact ⟨rest, rfl, rfl⟩
  | cons spelling table ih =>
      obtain ⟨behind, split, respelled⟩ :=
        ih (fun other member => nonempty other (List.mem_cons_of_mem spelling member))
          (fun other member => apart other (List.mem_cons_of_mem spelling member)) starts
      have startsHere : part <+: (Recognizer.fixed spelling.1.toList).replaceAll
          (fun _ => spelling.2.toList) text := ⟨behind, split.symm⟩
      obtain ⟨rest, rfl, replaced⟩ := (apart spelling List.mem_cons_self)
        |>.exists_of_isPrefix_replaceAll (nonempty spelling List.mem_cons_self) startsHere
      refine ⟨rest, rfl, ?_⟩
      have same := List.append_cancel_left (split.symm.trans replaced)
      exact respelled.trans (congrArg (fun behind => part ++ respellBy table behind) same)

theorem length_replaceAll_fixed {old new : Text} (nonempty : old ≠ [])
    (sameLength : new.length = old.length) (text : Text) :
    ((Recognizer.fixed old).replaceAll (fun _ => new) text).length = text.length := by
  induction text using fixed_induction nonempty with
  | nil => rw [replaceAll_fixed_nil new nonempty]
  | gap char text missing ih =>
      rw [replaceAll_fixed_cons new missing, List.length_cons, ih, List.length_cons]
  | hit text ih =>
      rw [replaceAll_fixed_hit new nonempty, List.length_append, ih, List.length_append, sameLength]

/-- Spellings that are as long as what stands for them keep the length of a text. -/
theorem length_respellBy (nonempty : ∀ spelling ∈ table, spelling.1.toList ≠ [])
    (sameLength : ∀ spelling ∈ table, spelling.2.toList.length = spelling.1.toList.length)
    (text : Text) : (respellBy table text).length = text.length := by
  induction table generalizing text with
  | nil => rfl
  | cons spelling table ih =>
      have here := length_replaceAll_fixed (nonempty spelling List.mem_cons_self)
        (sameLength spelling List.mem_cons_self) text
      have tail := ih (fun other member => nonempty other (List.mem_cons_of_mem spelling member))
        fun other member => sameLength other (List.mem_cons_of_mem spelling member)
      exact (tail _).trans here

end Tables

end Offside
