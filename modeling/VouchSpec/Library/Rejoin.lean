import VouchSpec.Library.Text

/-! Lines that are joined and split again: they come back, but for an empty last one. -/

namespace Lines

/-- There is no end of a line in it. -/
def Unbroken (line : List Char) : Prop := ∀ c ∈ line, isBreak c = false

theorem unbroken_nil : Unbroken [] := nofun

theorem Unbroken.concat {line : List Char} (unbroken : Unbroken line) {c : Char} (hChar : isBreak c ≠ true) :
    Unbroken (line ++ [c]) := by
  intro other hOther
  rcases List.mem_append.mp hOther with hLine | hLast
  · exact unbroken other hLine
  · rw [List.mem_singleton.mp hLast]
    exact Bool.eq_false_of_not_eq_true hChar

theorem unbroken_splitFrom (line characters : List Char) (hLine : Unbroken line) :
    ∀ found ∈ splitFrom line characters, Unbroken found := by
  fun_induction splitFrom line characters with
  | case1 => simp
  | case2 line hSome => simpa using hLine
  | case3 line c hBreak => simpa using hLine
  | case4 line c hChar => simpa using hLine.concat hChar
  | case5 line c next rest hPair ih => simpa using ⟨hLine, ih unbroken_nil⟩
  | case6 line c next rest hPair hBreak ih => simpa using ⟨hLine, ih unbroken_nil⟩
  | case7 line c next rest hPair hChar ih => exact ih (hLine.concat hChar)

/-- The lines of a text are unbroken. -/
theorem unbroken_split (characters : List Char) : ∀ line ∈ split characters, Unbroken line :=
  unbroken_splitFrom [] characters unbroken_nil

theorem splitFrom_cons {line rest : List Char} {c : Char} (hChar : isBreak c = false) :
    splitFrom line (c :: rest) = splitFrom (line ++ [c]) rest := by
  have hReturn : c.toNat ≠ 13 := by
    intro hCode
    simp [isBreak, hCode] at hChar
  cases rest with
  | nil => simp [splitFrom, hChar]
  | cons next rest => simp [splitFrom, hReturn, hChar]

theorem splitFrom_unbroken (line : List Char) {more rest : List Char} (unbroken : Unbroken more) :
    splitFrom line (more ++ rest) = splitFrom (line ++ more) rest := by
  induction more generalizing line with
  | nil => rw [List.nil_append, List.append_nil]
  | cons c more ih =>
      rw [List.cons_append, splitFrom_cons (unbroken c List.mem_cons_self),
        ih (line ++ [c]) fun d hd => unbroken d (List.mem_cons_of_mem _ hd), List.append_assoc]
      rfl

/-- A line feed ends the line that is begun. -/
theorem splitFrom_feed (line rest : List Char) :
    splitFrom line (Char.ofNat 10 :: rest) = line :: splitFrom [] rest := by
  cases rest with
  | nil => rfl
  | cons next rest =>
      have hAlone : ¬((Char.ofNat 10).toNat = 13 ∧ next.toNat = 10) := fun hPair => absurd hPair.1 (by decide)
      have hBreak : isBreak (Char.ofNat 10) = true := rfl
      rw [splitFrom, if_neg hAlone, if_pos hBreak]

theorem join_cons (line next : List Char) (rest : List (List Char)) :
    join (line :: next :: rest) = line ++ Char.ofNat 10 :: join (next :: rest) := by
  simp [join]

/-- The lines, without the last one when it is empty. -/
def trimmed : List (List Char) → List (List Char)
  | [] => []
  | [line] => if line = [] then [] else [line]
  | line :: next :: rest => line :: trimmed (next :: rest)

theorem split_join {lines : List (List Char)} (unbroken : ∀ line ∈ lines, Unbroken line) :
    split (join lines) = trimmed lines := by
  induction lines with
  | nil => rfl
  | cons line rest ih =>
      have hLine := unbroken line List.mem_cons_self
      have hRest := ih fun other hOther => unbroken other (List.mem_cons_of_mem _ hOther)
      cases rest with
      | nil =>
          have hEnd := @splitFrom_unbroken [] line [] hLine
          rw [List.append_nil, List.nil_append] at hEnd
          rw [split, join, List.intersperse_singleton, List.flatten_singleton, hEnd]
          rfl
      | cons next rest =>
          rw [join_cons, split, splitFrom_unbroken [] hLine, List.nil_append, splitFrom_feed, ← split, hRest]
          rfl

/-- A last line that is lost is empty. -/
theorem trimmed_or (lines : List (List Char)) : trimmed lines = lines ∨ trimmed lines ++ [[]] = lines := by
  induction lines with
  | nil => exact Or.inl rfl
  | cons line rest ih =>
      cases rest with
      | nil =>
          by_cases hEmpty : line = []
          · exact Or.inr (by simp [trimmed, hEmpty])
          · exact Or.inl (by simp [trimmed, hEmpty])
      | cons next rest =>
          rcases ih with hSame | hLost
          · exact Or.inl (by rw [trimmed, hSame])
          · exact Or.inr (by rw [trimmed, List.cons_append, hLost])

theorem trimmed_length_le (lines : List (List Char)) : (trimmed lines).length ≤ lines.length := by
  rcases trimmed_or lines with hSame | hLost
  · rw [hSame]
  · have hLength := congrArg List.length hLost
    rw [List.length_append, List.length_singleton] at hLength
    omega

/-- Every line but an unfinished one takes a character. -/
theorem splitFrom_length_le (line characters : List Char) : (splitFrom line characters).length ≤ characters.length + 1 := by
  fun_induction splitFrom line characters with
  | case1 => simp
  | case2 => simp
  | case3 => simp
  | case4 => simp
  | case5 line c next rest hPair ih =>
      rw [List.length_cons, List.length_cons, List.length_cons]
      omega
  | case6 line c next rest hPair hBreak ih =>
      rw [List.length_cons] at ih ⊢
      rw [List.length_cons, List.length_cons]
      omega
  | case7 line c next rest hPair hBreak ih =>
      rw [List.length_cons] at ih ⊢
      rw [List.length_cons]
      omega

theorem length_of_mem_splitFrom (line characters : List Char) :
    ∀ found ∈ splitFrom line characters, found.length ≤ line.length + characters.length := by
  fun_induction splitFrom line characters with
  | case1 => simp
  | case2 => simp
  | case3 => simp
  | case4 => simp
  | case5 line c next rest hPair ih =>
      intro found hFound
      rcases List.mem_cons.mp hFound with rfl | hLater
      · omega
      · have hShort := ih found hLater
        rw [List.length_nil] at hShort
        rw [List.length_cons, List.length_cons]
        omega
  | case6 line c next rest hPair hBreak ih =>
      intro found hFound
      rcases List.mem_cons.mp hFound with rfl | hLater
      · omega
      · have hShort := ih found hLater
        rw [List.length_cons] at hShort ⊢
        rw [List.length_cons]
        rw [List.length_nil] at hShort
        omega
  | case7 line c next rest hPair hBreak ih =>
      intro found hFound
      have hShort := ih found hFound
      rw [List.length_append, List.length_singleton, List.length_cons] at hShort
      rw [List.length_cons, List.length_cons]
      omega

end Lines
