import VouchSpec.Inspection.Skill

/-! What each candidate adds to the references of a skill, and what the loop over
the candidates comes to. -/

namespace VouchSpec

namespace Inspection

/-- The candidate has been looked at. -/
def References.see (references : References) (candidate : Candidate) : References :=
  { references with seen := candidate :: references.seen }

/-- A candidate that is looked up in the skill: it is new, and no URL. -/
def isLookedUp (lib : Libraries) (candidate : Candidate) : Bool :=
  candidate.target ≠ [] &&
    match lib.urlparse candidate.target with
    | none => false
    | some url =>
        lib.lower url.scheme ∉ urlSchemes && candidate.target.head? ≠ some '#' && url.scheme = "" &&
          !isAbsolute (normalizedTarget candidate.target)

/-- What a step does to the references. -/
inductive Referred (lib : Libraries) (snapshot : Snapshot) (references : References) (candidate : Candidate) :
    References → Prop where
  | known : Referred lib snapshot references candidate references
  | outside (path : List Char) (message : String) (hPath : path ≠ []) :
      Referred lib snapshot references candidate ((references.see candidate).outside candidate path message)
  | external (target : List Char) (hTarget : target.length ≤ 500) :
      Referred lib snapshot references candidate ((references.see candidate).addExternal target)
  | inside (relative : String) (hLookedUp : isLookedUp lib candidate = true)
      (hResolved : lib.resolve snapshot.root (normalizedTarget candidate.target) = .ok (some relative)) :
      Referred lib snapshot references candidate ((references.see candidate).inside candidate relative
        (snapshot.files.any fun item => item.path = relative))

section
variable {lib : Libraries} {snapshot : Snapshot}

theorem sanitizeExternalTarget_length (url : Url) : (sanitizeExternalTarget lib url).length ≤ 500 := by
  unfold sanitizeExternalTarget
  have hInvalid : ∀ scheme : String, scheme = "http" ∨ scheme = "https" →
      (scheme ++ ":<invalid>").toList.length ≤ 500 := by
    rintro scheme (rfl | rfl) <;> decide
  simp only
  split
  · next hScheme =>
      split
      · split
        · exact hInvalid _ hScheme
        · exact List.length_take_le _ _
      · exact hInvalid _ hScheme
  · split
    · decide
    · split
      · decide
      · exact List.length_take_le _ _

theorem step_referred {references after : References} {candidate : Candidate}
    (h : references.step lib snapshot candidate = .ok after) : Referred lib snapshot references candidate after := by
  unfold References.step at h
  simp only at h
  split at h
  · obtain rfl := Except.pure_eq_ok_iff.mp h
    exact .known
  · next hNew =>
      have hTarget : candidate.target ≠ [] := fun hNone => hNew (Or.inl hNone)
      cases hUrl : lib.urlparse candidate.target with
      | none =>
          rw [hUrl] at h
          obtain rfl := Except.pure_eq_ok_iff.mp h
          exact .outside _ _ hTarget
      | some url =>
          rw [hUrl] at h
          simp only at h
          split at h
          · obtain rfl := Except.pure_eq_ok_iff.mp h
            refine .external _ ?_
            split
            · exact List.length_take_le _ _
            · exact sanitizeExternalTarget_length url
          · next hForeign =>
              split at h
              · obtain rfl := Except.pure_eq_ok_iff.mp h
                exact .outside _ _ hTarget
              · next hScheme =>
                  have hNormalized : normalizedTarget candidate.target ≠ [] := by
                    simpa [normalizedTarget] using hTarget
                  unfold resolveReference at h
                  simp only at h
                  split at h
                  · obtain rfl := Except.pure_eq_ok_iff.mp h
                    exact .outside _ _ hNormalized
                  · next hRelative =>
                      obtain ⟨resolved, hResolved, h⟩ := Except.bind_eq_ok_iff.mp h
                      cases resolved with
                      | none =>
                          obtain rfl := Except.pure_eq_ok_iff.mp h
                          exact .outside _ _ hNormalized
                      | some relative =>
                          obtain rfl := Except.pure_eq_ok_iff.mp h
                          refine .inside relative ?_ hResolved
                          rw [isLookedUp, hUrl]
                          simp only [not_or] at hForeign
                          simp_all

/-- Findings stay. -/
theorem Referred.findings {references after : References} {candidate : Candidate}
    (referred : Referred lib snapshot references candidate after) :
    ∀ finding ∈ references.findings, finding ∈ after.findings := by
  intro finding hFinding
  cases referred with
  | known => exact hFinding
  | outside path message hPath => exact List.mem_append_left _ hFinding
  | external target hTarget =>
      unfold References.addExternal
      split <;> exact hFinding
  | inside relative hLookedUp hResolved => exact List.mem_append_left _ hFinding

theorem loop_findings {candidates : List Candidate} {references after : References}
    (h : candidates.foldlM (References.step lib snapshot) references = .ok after) :
    ∀ finding ∈ references.findings, finding ∈ after.findings := by
  induction candidates generalizing references with
  | nil =>
      obtain rfl := Except.pure_eq_ok_iff.mp h
      exact fun _ => id
  | cons candidate rest ih =>
      simp only [List.foldlM_cons, Except.bind_eq_ok_iff] at h
      obtain ⟨next, hStep, hRest⟩ := h
      exact fun finding hFinding => ih hRest finding ((step_referred hStep).findings finding hFinding)

end

end Inspection

end VouchSpec
