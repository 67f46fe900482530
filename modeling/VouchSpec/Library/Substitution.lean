import Mathlib.Data.List.Basic

/-! Texts in which the matches of patterns are replaced, one pattern after the other, from
the left. A window of a text that no earlier replacement touches is found where it was, and
what surrounds it does not depend on what is in it. -/

namespace Substitution

/-- A match at the beginning of a text: its length, how much of it comes before what is
secret, and the group that is kept. -/
structure Found where
  length : Nat
  kept : Nat
  group : List Char
deriving DecidableEq

/-- A pattern, and what replaces its matches. The pattern is told whether a word character
stands before the text. -/
structure Rule where
  matcher : Bool → List Char → Option Found
  replacement : List Char → List Char

section
variable (isWord : Char → Bool)

/-- Whether a word character stands behind a text. -/
def wordAfter (before : Bool) (text : List Char) : Bool :=
  match text.getLast? with
  | some c => isWord c
  | none => before

/-- The replacement of the matches in a text of which the first characters are taken already. -/
def replaceFrom (rule : Rule) : Nat → Bool → List Char → List Char
  | _, _, [] => []
  | taken + 1, _, c :: rest => replaceFrom rule taken (isWord c) rest
  | 0, before, c :: rest =>
      match rule.matcher before (c :: rest) with
      | some found => rule.replacement found.group ++ replaceFrom rule (found.length - 1) (isWord c) rest
      | none => c :: replaceFrom rule 0 (isWord c) rest

def replaceAll (rule : Rule) (text : List Char) : List Char := replaceFrom isWord rule 0 false text

/-- The replacement of the matches in a text that goes on, unless a match reaches into what
follows. -/
def replaceFront (rule : Rule) : Nat → Bool → List Char → List Char → Option (List Char)
  | 0, _, [], _ => some []
  | _ + 1, _, [], _ => none
  | taken + 1, _, c :: front, rest => replaceFront rule taken (isWord c) front rest
  | 0, before, c :: front, rest =>
      match rule.matcher before (c :: (front ++ rest)) with
      | some found =>
          (replaceFront rule (found.length - 1) (isWord c) front rest).map (rule.replacement found.group ++ ·)
      | none => (replaceFront rule 0 (isWord c) front rest).map (c :: ·)

/-- A match that ends before a character with which matches begin does not depend on what
that character is, or what comes after it. -/
def Stable (starts : Char → Bool) (matcher : List Char → Option Found) : Prop :=
  ∀ front first firstRest second secondRest found, starts first = true → starts second = true →
    matcher (front ++ first :: firstRest) = some found → found.length ≤ front.length →
    matcher (front ++ second :: secondRest) = some found ∨
      ∃ other, matcher (front ++ second :: secondRest) = some other ∧ front.length < other.length

/-- A rule whose matches begin with certain characters, and depend on nothing behind them. -/
structure Rule.Local (starts : Char → Bool) (rule : Rule) : Prop where
  begins : ∀ before text found, rule.matcher before text = some found →
    ∃ c rest, text = c :: rest ∧ starts c = true ∧ 0 < found.length
  front : ∀ before, Stable starts (rule.matcher before)
  group : ∀ before context first second found other, rule.matcher before (context ++ first) = some found →
    rule.matcher before (context ++ second) = some other → found.kept = context.length →
    other.kept = context.length → found.group = other.group

/-- One of two patterns, the first one before the other. -/
theorem Stable.or {starts : Char → Bool} {one other : List Char → Option Found} (hOne : Stable starts one)
    (hOther : Stable starts other) : Stable starts fun text => (one text).or (other text) := by
  intro front first firstRest second secondRest found hFirst hSecond hFound hLength
  simp only at hFound ⊢
  cases hMatch : one (front ++ first :: firstRest) with
  | some early =>
      rw [hMatch, Option.some_or] at hFound
      obtain rfl := Option.some.inj hFound
      rcases hOne front first firstRest second secondRest early hFirst hSecond hMatch hLength with hSame | ⟨longer, hLonger, hMore⟩
      · exact Or.inl (by rw [hSame, Option.some_or])
      · exact Or.inr ⟨longer, by rw [hLonger, Option.some_or], hMore⟩
  | none =>
      rw [hMatch, Option.none_or] at hFound
      cases hEarly : one (front ++ second :: secondRest) with
      | none =>
          rw [Option.none_or]
          exact hOther front first firstRest second secondRest found hFirst hSecond hFound hLength
      | some early =>
          rw [Option.some_or]
          by_cases hShort : early.length ≤ front.length
          · rcases hOne front second secondRest first firstRest early hSecond hFirst hEarly hShort with hSame | ⟨longer, hLonger, _⟩
            · rw [hSame] at hMatch
              cases hMatch
            · rw [hLonger] at hMatch
              cases hMatch
          · exact Or.inr ⟨early, rfl, by omega⟩

theorem Stable.findSome {starts : Char → Bool} {Alternative : Type} {matcher : Alternative → List Char → Option Found}
    {alternatives : List Alternative} (h : ∀ alternative ∈ alternatives, Stable starts (matcher alternative)) :
    Stable starts fun text => alternatives.findSome? fun alternative => matcher alternative text := by
  induction alternatives with
  | nil =>
      intro front first firstRest second secondRest found hFirst hSecond hFound
      cases hFound
  | cons alternative rest ih =>
      have hOr := (h alternative List.mem_cons_self).or (ih fun other hOther => h other (List.mem_cons_of_mem _ hOther))
      have hSame : (fun text => (alternative :: rest).findSome? fun alternative => matcher alternative text) = fun text =>
          (matcher alternative text).or (rest.findSome? fun alternative => matcher alternative text) := by
        funext text
        rw [List.findSome?_cons]
        cases matcher alternative text <;> rfl
      rw [hSame]
      exact hOr

/-- A condition on the first character before a pattern. -/
theorem Stable.guard {starts : Char → Bool} {matcher : List Char → Option Found} {condition : Option Char → Bool}
    (h : Stable starts matcher) (hPositive : ∀ text found, matcher text = some found → 0 < found.length) :
    Stable starts fun text => if condition text.head? = true then matcher text else none := by
  intro front first firstRest second secondRest found hFirst hSecond hFound hLength
  simp only at hFound ⊢
  split at hFound
  · next hCondition =>
      have hNonempty := hPositive _ _ hFound
      cases front with
      | nil =>
          rw [List.length_nil] at hLength
          omega
      | cons c rest =>
          rw [if_pos (show condition ((c :: rest) ++ second :: secondRest).head? = true from hCondition)]
          exact h (c :: rest) first firstRest second secondRest found hFirst hSecond hFound hLength
  · cases hFound

section
variable {isWord} {rule : Rule} {starts : Char → Bool}

theorem wordAfter_cons (before : Bool) (c : Char) (text : List Char) :
    wordAfter isWord before (c :: text) = wordAfter isWord (isWord c) text := by
  cases text with
  | nil => rfl
  | cons next rest =>
      rw [wordAfter, wordAfter, List.getLast?_cons_cons, List.getLast?_eq_some_getLast (List.cons_ne_nil _ _)]

theorem wordAfter_append (before : Bool) (front rest : List Char) :
    wordAfter isWord before (front ++ rest) = wordAfter isWord (wordAfter isWord before front) rest := by
  induction front generalizing before with
  | nil => rfl
  | cons c more ih => rw [List.cons_append, wordAfter_cons, wordAfter_cons, ih]

/-- What is taken already is left out. -/
theorem replaceFrom_length (front rest : List Char) (before : Bool) :
    replaceFrom isWord rule front.length before (front ++ rest) =
      replaceFrom isWord rule 0 (wordAfter isWord before front) rest := by
  induction front generalizing before with
  | nil => rfl
  | cons c more ih =>
      rw [wordAfter_cons]
      exact ih (isWord c)

theorem replaceFrom_front {taken : Nat} {before : Bool} {front rest replaced : List Char}
    (h : replaceFront isWord rule taken before front rest = some replaced) :
    replaceFrom isWord rule taken before (front ++ rest) =
      replaced ++ replaceFrom isWord rule 0 (wordAfter isWord before front) rest := by
  induction front generalizing taken before replaced with
  | nil =>
      cases taken with
      | zero =>
          rw [replaceFront] at h
          rw [← Option.some.inj h]
          rfl
      | succ taken =>
          rw [replaceFront] at h
          cases h
  | cons c front ih =>
      rw [wordAfter_cons]
      cases taken with
      | succ taken => exact ih h
      | zero =>
          rw [replaceFront] at h
          rw [List.cons_append, replaceFrom]
          cases hFound : rule.matcher before (c :: (front ++ rest)) with
          | some found =>
              rw [hFound] at h
              obtain ⟨more, hMore, rfl⟩ := Option.map_eq_some_iff.mp h
              simp only
              rw [ih hMore, List.append_assoc]
          | none =>
              rw [hFound] at h
              obtain ⟨more, hMore, rfl⟩ := Option.map_eq_some_iff.mp h
              simp only
              rw [ih hMore, List.cons_append]

theorem taken_le_of_replaceFront {taken : Nat} {before : Bool} {front rest replaced : List Char}
    (h : replaceFront isWord rule taken before front rest = some replaced) : taken ≤ front.length := by
  induction front generalizing taken before with
  | nil =>
      cases taken with
      | zero => exact Nat.le_refl _
      | succ taken =>
          rw [replaceFront] at h
          cases h
  | cons c front ih =>
      cases taken with
      | zero => exact Nat.zero_le _
      | succ taken =>
          have hMore := ih h
          rw [List.length_cons]
          omega

/-- What stands before a window does not depend on the window. -/
theorem replaceFront_unique (isLocal : rule.Local starts) {first second : Char} (hFirst : starts first = true)
    (hSecond : starts second = true) {taken : Nat} {before : Bool} {front firstRest secondRest one other : List Char}
    (hOne : replaceFront isWord rule taken before front (first :: firstRest) = some one)
    (hOther : replaceFront isWord rule taken before front (second :: secondRest) = some other) : one = other := by
  induction front generalizing taken before one other with
  | nil =>
      cases taken with
      | zero => exact Option.some.inj (hOne.symm.trans hOther)
      | succ taken =>
          rw [replaceFront] at hOne
          cases hOne
  | cons c front ih =>
      cases taken with
      | succ taken => exact ih hOne hOther
      | zero =>
          rw [replaceFront] at hOne hOther
          have hLocal := fun first firstRest second secondRest found => isLocal.front before (c :: front) first firstRest
            second secondRest found
          simp only [List.cons_append] at hLocal
          cases hFound : rule.matcher before (c :: (front ++ first :: firstRest)) with
          | some found =>
              rw [hFound] at hOne
              obtain ⟨more, hMore, rfl⟩ := Option.map_eq_some_iff.mp hOne
              have hLength : found.length ≤ (c :: front).length := by
                have hTaken := taken_le_of_replaceFront hMore
                rw [List.length_cons]
                omega
              rcases hLocal first firstRest second secondRest found hFirst hSecond hFound hLength with
                hSame | ⟨longer, hLonger, hLength⟩
              · rw [hSame] at hOther
                obtain ⟨others, hOthers, rfl⟩ := Option.map_eq_some_iff.mp hOther
                rw [ih hMore hOthers]
              · rw [hLonger] at hOther
                obtain ⟨others, hOthers, rfl⟩ := Option.map_eq_some_iff.mp hOther
                have hTaken := taken_le_of_replaceFront hOthers
                rw [List.length_cons] at hLength
                omega
          | none =>
              rw [hFound] at hOne
              obtain ⟨more, hMore, rfl⟩ := Option.map_eq_some_iff.mp hOne
              cases hSecondFound : rule.matcher before (c :: (front ++ second :: secondRest)) with
              | none =>
                  rw [hSecondFound] at hOther
                  obtain ⟨others, hOthers, rfl⟩ := Option.map_eq_some_iff.mp hOther
                  rw [ih hMore hOthers]
              | some found =>
                  rw [hSecondFound] at hOther
                  obtain ⟨others, hOthers, rfl⟩ := Option.map_eq_some_iff.mp hOther
                  have hLength : found.length ≤ (c :: front).length := by
                    have hTaken := taken_le_of_replaceFront hOthers
                    rw [List.length_cons]
                    omega
                  rcases hLocal second secondRest first firstRest found hSecond hFirst hSecondFound hLength with
                    hSame | ⟨longer, hLonger, -⟩
                  · rw [hSame] at hFound
                    cases hFound
                  · rw [hLonger] at hFound
                    cases hFound

theorem Rule.Local.none (isLocal : rule.Local starts) {before : Bool} {c : Char} {rest : List Char}
    (h : starts c = false) : rule.matcher before (c :: rest) = none := by
  cases hFound : rule.matcher before (c :: rest) with
  | none => rfl
  | some found =>
      obtain ⟨head, more, hText, hStarts, _⟩ := isLocal.begins before _ found hFound
      obtain ⟨rfl, _⟩ := List.cons.inj hText
      rw [h] at hStarts
      cases hStarts

/-- What stands behind a window does not tell whether the window ends in a word character. -/
def Quiet (starts : Char → Bool) (back : List Char) (before after : Bool) : Prop :=
  (∀ c ∈ back.head?, starts c = false) ∨ before = after

theorem Quiet.replaceFrom (isLocal : rule.Local starts) {back : List Char} {before after : Bool}
    (quiet : Quiet starts back before after) :
    replaceFrom isWord rule 0 before back = replaceFrom isWord rule 0 after back := by
  rcases quiet with hHead | rfl
  · cases back with
    | nil => rfl
    | cons c rest =>
        rw [Substitution.replaceFrom, Substitution.replaceFrom, isLocal.none (hHead c rfl), isLocal.none (hHead c rfl)]
  · rfl

/-- What stays at the front of what follows a window. -/
theorem Quiet.after (isLocal : rule.Local starts) {back : List Char} {before after : Bool} {flag : Bool}
    (quiet : Quiet starts back before after) : Quiet starts (Substitution.replaceFrom isWord rule 0 flag back) before after := by
  rcases quiet with hHead | rfl
  · cases back with
    | nil => exact Or.inl hHead
    | cons c rest =>
        rw [Substitution.replaceFrom, isLocal.none (hHead c rfl)]
        exact Or.inl hHead
  · exact Or.inr rfl

end

/-- A window of a text: what is recognised, in two parts, of which the second one is secret. -/
structure Window where
  front : List Char
  context : List Char
  secret : List Char
  back : List Char
deriving DecidableEq

namespace Window

def inside (w : Window) : List Char := w.context ++ w.secret

def text (w : Window) : List Char := w.front ++ (w.inside ++ w.back)

/-- A rule on a text with a window, when no match reaches over the ends of its parts. -/
def pass (rule : Rule) (w : Window) : Option Window := do
  let front ← replaceFront isWord rule 0 false w.front (w.inside ++ w.back)
  let context ← replaceFront isWord rule 0 (wordAfter isWord false w.front) w.context (w.secret ++ w.back)
  let secret ← replaceFront isWord rule 0 (wordAfter isWord (wordAfter isWord false w.front) w.context) w.secret w.back
  return {
    front, context, secret
    back := replaceFrom isWord rule 0 (wordAfter isWord (wordAfter isWord false w.front) w.inside) w.back }

/-- A rule leaves the context of a window alone, and the secret as well where it is fixed. -/
structure Passes (isFixed : Bool) (rule : Rule) (w after : Window) : Prop where
  pass : w.pass isWord rule = some after
  context : after.context = w.context
  secret : isFixed = true → after.secret = w.secret

/-- A rule finds the window as a match. -/
structure FoundBy (rule : Rule) (w : Window) : Prop where
  front : (replaceFront isWord rule 0 false w.front (w.inside ++ w.back)).isSome = true
  found : ∃ found, rule.matcher (wordAfter isWord false w.front) (w.inside ++ w.back) = some found ∧
    found.length = w.inside.length ∧ found.kept = w.context.length

/-- After the earlier rules, which pass the window, a rule finds it. -/
def InTurn (isFixed : Bool) (rule : Rule) : List Rule → Window → Prop
  | [], w => FoundBy isWord rule w
  | earlier :: rest, w => ∃ after, Passes isWord isFixed earlier w after ∧ InTurn isFixed rule rest after

/-- Windows that differ in their secrets only. -/
structure Alike (starts : Char → Bool) (isFixed : Bool) (first second : Window) : Prop where
  front : first.front = second.front
  context : first.context = second.context
  back : first.back = second.back
  opens : isFixed = true ∨ first.context ≠ []
  begins : ∃ c rest, first.inside = c :: rest ∧ starts c = true
  beginsToo : ∃ c rest, second.inside = c :: rest ∧ starts c = true
  quiet : (∀ c ∈ first.back.head?, starts c = false) ∨
    isFixed = true ∧ wordAfter isWord false first.inside = wordAfter isWord false second.inside

section
variable {isWord} {starts : Char → Bool} {isFixed : Bool} {rule : Rule} {first second : Window}

theorem Alike.symm (alike : Alike isWord starts isFixed first second) : Alike isWord starts isFixed second first where
  front := alike.front.symm
  context := alike.context.symm
  back := alike.back.symm
  opens := alike.context ▸ alike.opens
  begins := alike.beginsToo
  beginsToo := alike.begins
  quiet := by
    rw [← alike.back]
    exact alike.quiet.imp_right fun h => ⟨h.1, h.2.symm⟩

theorem wordAfter_cons_eq (before after : Bool) (c : Char) (rest : List Char) :
    wordAfter isWord before (c :: rest) = wordAfter isWord after (c :: rest) := by
  rw [wordAfter_cons, wordAfter_cons]

theorem Alike.quietAfter (alike : Alike isWord starts isFixed first second) (before after : Bool) :
    Quiet starts first.back (wordAfter isWord before first.inside) (wordAfter isWord after second.inside) := by
  obtain ⟨c, rest, hInside, -⟩ := alike.begins
  obtain ⟨d, others, hOther, -⟩ := alike.beginsToo
  have hQuiet := alike.quiet
  rw [hInside, hOther] at hQuiet ⊢
  rw [wordAfter_cons_eq before false, wordAfter_cons_eq after false]
  exact hQuiet.imp_right And.right

theorem text_pass {w after : Window} (h : w.pass isWord rule = some after) : replaceAll isWord rule w.text = after.text := by
  simp only [pass, bind, Option.bind_eq_some_iff, pure, Option.some.injEq] at h
  obtain ⟨front, hFront, context, hContext, secret, hSecret, rfl⟩ := h
  have hInside : w.inside ++ w.back = w.context ++ (w.secret ++ w.back) := List.append_assoc ..
  rw [replaceAll, text, replaceFrom_front hFront, hInside, replaceFrom_front hContext, replaceFrom_front hSecret,
    ← wordAfter_append]
  exact congrArg (front ++ ·) (List.append_assoc ..).symm

/-- The rules keep windows alike. -/
theorem Alike.passes (isLocal : rule.Local starts) (alike : Alike isWord starts isFixed first second) {one other : Window}
    (hOne : Passes isWord isFixed rule first one) (hOther : Passes isWord isFixed rule second other) :
    Alike isWord starts isFixed one other := by
  have hPass := hOne.pass
  have hPassToo := hOther.pass
  simp only [pass, bind, Option.bind_eq_some_iff, pure, Option.some.injEq] at hPass hPassToo
  obtain ⟨front, hFront, context, -, secret, -, hAfter⟩ := hPass
  obtain ⟨frontToo, hFrontToo, contextToo, -, secretToo, -, hAfterToo⟩ := hPassToo
  obtain ⟨c, rest, hInside, hStarts⟩ := alike.begins
  obtain ⟨d, others, hInsideToo, hStartsToo⟩ := alike.beginsToo
  have hSameFront : front = frontToo := by
    rw [hInside] at hFront
    rw [← alike.front, hInsideToo] at hFrontToo
    exact replaceFront_unique isLocal hStarts hStartsToo hFront hFrontToo
  have hQuiet := alike.quietAfter (wordAfter isWord false first.front) (wordAfter isWord false second.front)
  have hBack : one.back = other.back := by
    rw [← hAfter, ← hAfterToo]
    change Substitution.replaceFrom isWord rule 0 _ first.back = Substitution.replaceFrom isWord rule 0 _ second.back
    rw [hQuiet.replaceFrom isLocal, alike.back]
  -- A window of which the secret may change begins in its context.
  have hBegins : ∀ {w after : Window}, Passes isWord isFixed rule w after → (isFixed = true ∨ w.context ≠ []) →
      (∃ c rest, w.inside = c :: rest ∧ starts c = true) → ∃ c rest, after.inside = c :: rest ∧ starts c = true := by
    rintro w after hPasses hOpens ⟨head, more, hHead, hStartsHead⟩
    rcases hOpens with hFixed | hContext
    · refine ⟨head, more, ?_, hStartsHead⟩
      rw [inside, hPasses.context, hPasses.secret hFixed, ← hHead, inside]
    · obtain ⟨first, tail, hTail⟩ := List.exists_cons_of_ne_nil hContext
      rw [inside, hTail, List.cons_append] at hHead
      obtain ⟨rfl, -⟩ := List.cons.inj hHead
      exact ⟨first, _, by rw [inside, hPasses.context, hTail, List.cons_append], hStartsHead⟩
  refine ⟨?_, ?_, hBack, ?_, hBegins hOne alike.opens alike.begins,
    hBegins hOther (alike.context ▸ alike.opens) alike.beginsToo, ?_⟩
  · rw [← hAfter, ← hAfterToo]
    exact hSameFront
  · rw [hOne.context, hOther.context, alike.context]
  · rw [hOne.context]
    exact alike.opens
  · rcases alike.quiet with hHead | ⟨hFixed, hSame⟩
    · left
      have hStays := @Quiet.after isWord rule starts isLocal first.back true false
        (wordAfter isWord (wordAfter isWord false first.front) first.inside) (Or.inl hHead)
      rw [← hAfter]
      exact hStays.resolve_right (by simp)
    · right
      rw [inside, inside, hOne.context, hOther.context, hOne.secret hFixed, hOther.secret hFixed]
      exact ⟨hFixed, hSame⟩

/-- A rule that finds alike windows replaces them alike. -/
theorem Alike.foundBy (isLocal : rule.Local starts) (alike : Alike isWord starts isFixed first second)
    (hFirst : FoundBy isWord rule first) (hSecond : FoundBy isWord rule second) :
    replaceAll isWord rule first.text = replaceAll isWord rule second.text := by
  obtain ⟨front, hFront⟩ := Option.isSome_iff_exists.mp hFirst.front
  obtain ⟨frontToo, hFrontToo⟩ := Option.isSome_iff_exists.mp hSecond.front
  obtain ⟨found, hFound, hLength, hKept⟩ := hFirst.found
  obtain ⟨other, hOther, hOtherLength, hOtherKept⟩ := hSecond.found
  obtain ⟨c, rest, hInside, hStarts⟩ := alike.begins
  obtain ⟨d, others, hInsideToo, hStartsToo⟩ := alike.beginsToo
  have hSameFront : front = frontToo := by
    rw [hInside] at hFront
    rw [← alike.front, hInsideToo] at hFrontToo
    exact replaceFront_unique isLocal hStarts hStartsToo hFront hFrontToo
  have hGroup : found.group = other.group := by
    rw [inside, List.append_assoc] at hFound hOther
    rw [← alike.front, ← alike.context] at hOther
    exact isLocal.group _ _ _ _ _ _ hFound hOther hKept (by rw [hOtherKept, alike.context])
  -- The match is replaced, and what is left begins after the window.
  have hWindow : ∀ {w : Window} {found : Found} {head : Char} {more : List Char}, w.inside = head :: more →
      rule.matcher (wordAfter isWord false w.front) (w.inside ++ w.back) = some found →
      found.length = w.inside.length →
      replaceFrom isWord rule 0 (wordAfter isWord false w.front) (w.inside ++ w.back) =
        rule.replacement found.group ++
          replaceFrom isWord rule 0 (wordAfter isWord false w.inside) w.back := by
    intro w found head more hHead hMatch hMatchLength
    rw [hHead, List.cons_append] at hMatch ⊢
    rw [replaceFrom, hMatch]
    simp only
    rw [hMatchLength, hHead, List.length_cons, Nat.add_sub_cancel, replaceFrom_length, wordAfter_cons]
  rw [replaceAll, replaceAll, text, text, replaceFrom_front hFront, replaceFrom_front hFrontToo,
    hWindow hInside hFound hLength, hWindow hInsideToo hOther hOtherLength, hSameFront, hGroup,
    (alike.quietAfter false false).replaceFrom isLocal, alike.back]

/-- Alike windows that are found in their turn are replaced alike. -/
theorem Alike.inTurn {earlier : List Rule} (locals : ∀ rule ∈ earlier, rule.Local starts) (isLocal : rule.Local starts)
    (alike : Alike isWord starts isFixed first second) (hFirst : InTurn isWord isFixed rule earlier first)
    (hSecond : InTurn isWord isFixed rule earlier second) :
    replaceAll isWord rule (earlier.foldl (fun text rule => replaceAll isWord rule text) first.text) =
      replaceAll isWord rule (earlier.foldl (fun text rule => replaceAll isWord rule text) second.text) := by
  induction earlier generalizing first second with
  | nil => exact alike.foundBy isLocal hFirst hSecond
  | cons next rest ih =>
      obtain ⟨one, hOne, hFirst⟩ := hFirst
      obtain ⟨other, hOther, hSecond⟩ := hSecond
      rw [List.foldl_cons, List.foldl_cons, text_pass hOne.pass, text_pass hOther.pass]
      exact ih (fun rule hRule => locals rule (List.mem_cons_of_mem _ hRule))
        (alike.passes (locals next List.mem_cons_self) hOne hOther) hFirst hSecond

end

end Window

end

end Substitution
