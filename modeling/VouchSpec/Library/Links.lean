import Mathlib.Data.List.Basic
import Mathlib.Data.List.Nodup
import Mathlib.Data.List.Perm.Subperm
import VouchSpec.Library.PosixPath

/-! File trees with symbolic links, and the real path that a path leads to. -/

/-- Why the system refuses a path. -/
inductive OsError where
  | missing
  | notDirectory
  | nameTooLong
  | denied
  | loop
deriving DecidableEq

/-- What lies at a path. -/
inductive Item where
  | directory
  | file
  | link (target : String)
deriving DecidableEq

def Item.isLink : Item → Bool
  | .link _ => true
  | _ => false

/-- A path of names behind none of which there is a link. -/
def IsReal (lstat : List String → Except OsError Item) (path : List String) : Prop :=
  ∀ front, front <+: path → ∃ item, lstat front = .ok item ∧ item.isLink = false

section
variable {lstat : List String → Except OsError Item} {path : List String}

theorem IsReal.front {front : List String} (real : IsReal lstat path) (hFront : front <+: path) : IsReal lstat front :=
  fun other hOther => real other (hOther.trans hFront)

theorem IsReal.append {name : String} {item : Item} (real : IsReal lstat path) (hItem : lstat (path ++ [name]) = .ok item)
    (hPlain : item.isLink = false) : IsReal lstat (path ++ [name]) := by
  intro front hFront
  rcases List.prefix_concat_iff.mp hFront with rfl | hBefore
  · exact ⟨item, hItem, hPlain⟩
  · exact real front hBefore

end

/-- A file tree by what the system answers for each path; its links at real paths are
finitely many. -/
structure LinkedTree where
  lstat : List String → Except OsError Item
  root : lstat [] = .ok .directory
  links : List (List String)
  listed : ∀ path name target, IsReal lstat path → lstat (path ++ [name]) = .ok (.link target) →
    path ++ [name] ∈ links

namespace LinkedTree

/-- Where the names of a link's target start from. -/
def start (path : List String) (target : String) : List String :=
  if (PosixPath.ofString target).root = "" then path else []

def targetNames (target : String) : List String := (PosixPath.ofString target).names

section
variable (tree : LinkedTree)

/-- `follow` over the names that are left, where `next` follows the target of a link;
`active` are the links that are being followed. -/
def followWith (next : List (List String) → List String → List String → Except OsError (List String))
    (active : List (List String)) : List String → List String → Except OsError (List String)
  | path, [] => .ok path
  | path, name :: rest =>
      if name = ".." then followWith next active path.dropLast rest
      else
        match tree.lstat (path ++ [name]) with
        | .error error => .error error
        | .ok (.link target) =>
            if path ++ [name] ∈ active then .error .loop
            else
              match next ((path ++ [name]) :: active) (start path target) (targetNames target) with
              | .error error => .error error
              | .ok middle => followWith next active middle rest
        | .ok _ => followWith next active (path ++ [name]) rest

/-- `_joinrealpath`, with links in links up to a depth. -/
def follow : Nat → List (List String) → List String → List String → Except OsError (List String)
  | 0 => followWith tree fun _ _ _ => .error .loop
  | depth + 1 => followWith tree (follow depth)

/-- `os.path.realpath(path, strict=True)`. -/
def realpath (names : List String) : Except OsError (List String) := tree.follow tree.links.length [] [] names

/-- The names lead from one real path to another, over so many names. -/
inductive Leads : Nat → List String → List String → List String → Prop where
  | done (path : List String) : Leads 0 path [] path
  | parent {steps : Nat} {path rest last : List String} (further : Leads steps path.dropLast rest last) :
      Leads (steps + 1) path (".." :: rest) last
  | plain {steps : Nat} {path rest last : List String} {name : String} {item : Item} (hName : name ≠ "..")
      (hItem : tree.lstat (path ++ [name]) = .ok item) (hPlain : item.isLink = false)
      (further : Leads steps (path ++ [name]) rest last) : Leads (steps + 1) path (name :: rest) last
  | link {inner steps : Nat} {path middle rest last : List String} {name target : String} (hName : name ≠ "..")
      (hItem : tree.lstat (path ++ [name]) = .ok (.link target))
      (followed : Leads inner (start path target) (targetNames target) middle)
      (further : Leads steps middle rest last) : Leads (inner + steps + 1) path (name :: rest) last

end

section
variable {tree : LinkedTree}

/-- There is one place that names lead to, and one way there. -/
theorem Leads.unique {steps other : Nat} {path names last others : List String}
    (first : tree.Leads steps path names last) (second : tree.Leads other path names others) :
    steps = other ∧ last = others := by
  induction first generalizing other others with
  | done path =>
      cases second
      exact ⟨rfl, rfl⟩
  | parent further ih =>
      cases second with
      | parent secondFurther =>
          obtain ⟨rfl, rfl⟩ := ih secondFurther
          exact ⟨rfl, rfl⟩
      | plain hName => exact absurd rfl hName
      | link hName => exact absurd rfl hName
  | plain hName hItem hPlain further ih =>
      cases second with
      | parent => exact absurd rfl hName
      | plain hOther hOtherItem hOtherPlain secondFurther =>
          obtain ⟨rfl, rfl⟩ := ih secondFurther
          exact ⟨rfl, rfl⟩
      | link hOther hOtherItem =>
          obtain rfl := Except.ok.inj (hItem.symm.trans hOtherItem)
          cases hPlain
  | link hName hItem followed further ihFollowed ihFurther =>
      cases second with
      | parent => exact absurd rfl hName
      | plain hOther hOtherItem hOtherPlain =>
          obtain rfl := Except.ok.inj (hItem.symm.trans hOtherItem)
          cases hOtherPlain
      | link hOther hOtherItem secondFollowed secondFurther =>
          obtain rfl := Item.link.inj (Except.ok.inj (hItem.symm.trans hOtherItem))
          obtain ⟨rfl, rfl⟩ := ihFollowed secondFollowed
          obtain ⟨rfl, rfl⟩ := ihFurther secondFurther
          exact ⟨rfl, rfl⟩

theorem Leads.append {first second : Nat} {path front middle back last : List String}
    (toMiddle : tree.Leads first path front middle) (toLast : tree.Leads second middle back last) :
    tree.Leads (first + second) path (front ++ back) last := by
  induction toMiddle with
  | done path => simpa using toLast
  | parent further ih =>
      have hSteps := Leads.parent (ih toLast)
      rwa [Nat.add_right_comm] at hSteps
  | plain hName hItem hPlain further ih =>
      have hSteps := Leads.plain hName hItem hPlain (ih toLast)
      rwa [Nat.add_right_comm] at hSteps
  | link hName hItem followed further ihFollowed ihFurther =>
      have hSteps := Leads.link hName hItem followed (ihFurther toLast)
      rwa [← Nat.add_assoc, Nat.add_right_comm] at hSteps

theorem isReal_nil : IsReal tree.lstat [] := by
  intro front hFront
  obtain rfl := List.prefix_nil.mp hFront
  exact ⟨_, tree.root, rfl⟩

theorem isReal_start {path : List String} (real : IsReal tree.lstat path) (target : String) :
    IsReal tree.lstat (start path target) := by
  unfold start
  split
  · exact real
  · exact isReal_nil

/-- What real paths lead to is real. -/
theorem Leads.real {steps : Nat} {path names last : List String} (leads : tree.Leads steps path names last)
    (real : IsReal tree.lstat path) : IsReal tree.lstat last := by
  induction leads with
  | done path => exact real
  | parent further ih => exact ih (real.front (List.dropLast_prefix _))
  | plain hName hItem hPlain further ih => exact ih (real.append hItem hPlain)
  | link hName hItem followed further ihFollowed ihFurther => exact ihFurther (ihFollowed (isReal_start real _))

theorem not_mem_start {path : List String} (hNames : ".." ∉ path) (target : String) : ".." ∉ start path target := by
  unfold start
  split
  · exact hNames
  · exact List.not_mem_nil

/-- No step up is left in what names lead to. -/
theorem Leads.descends {steps : Nat} {path names last : List String} (leads : tree.Leads steps path names last)
    (hNames : ".." ∉ path) : ".." ∉ last := by
  induction leads with
  | done path => exact hNames
  | parent further ih => exact ih fun hLast => hNames (List.dropLast_subset _ hLast)
  | plain hName hItem hPlain further ih =>
      refine ih ?_
      rw [List.mem_append, List.mem_singleton, not_or]
      exact ⟨hNames, Ne.symm hName⟩
  | link hName hItem followed further ihFollowed ihFurther => exact ihFurther (ihFollowed (not_mem_start hNames _))

/-- A real path leads to itself. -/
theorem leads_self {path : List String} (real : IsReal tree.lstat path) (hNames : ".." ∉ path) :
    ∃ steps, tree.Leads steps [] path path := by
  induction path using List.reverseRecOn with
  | nil => exact ⟨0, .done []⟩
  | append_singleton init last ih =>
      simp only [List.mem_append, List.mem_singleton, not_or] at hNames
      obtain ⟨steps, hSteps⟩ := ih (real.front (List.prefix_append _ _)) hNames.1
      obtain ⟨item, hItem, hPlain⟩ := real _ (List.prefix_refl _)
      exact ⟨_, hSteps.append (.plain (Ne.symm hNames.2) hItem hPlain (.done _))⟩

section
variable {next : List (List String) → List String → List String → Except OsError (List String)}
  {active : List (List String)}

/-- Following the names leads where it says, when following the targets does. -/
theorem leads_of_followWith (hNext : ∀ {active path names last}, next active path names = .ok last →
    ∃ steps, tree.Leads steps path names last) {path names last : List String}
    (h : tree.followWith next active path names = .ok last) : ∃ steps, tree.Leads steps path names last := by
  induction names generalizing path with
  | nil =>
      obtain rfl := Except.ok.inj h
      exact ⟨0, .done path⟩
  | cons name rest ih =>
      rw [followWith] at h
      split at h
      · next hParent =>
          subst hParent
          obtain ⟨steps, hSteps⟩ := ih h
          exact ⟨_, .parent hSteps⟩
      · next hName =>
          split at h
          · cases h
          · next target hItem =>
              split at h
              · cases h
              · split at h
                · cases h
                · next middle hMiddle =>
                    obtain ⟨inner, hInner⟩ := hNext hMiddle
                    obtain ⟨steps, hSteps⟩ := ih h
                    exact ⟨_, .link hName hItem hInner hSteps⟩
          · next item hNoLink hItem =>
              obtain ⟨steps, hSteps⟩ := ih h
              have hPlain : item.isLink = false := by
                cases item with
                | link target => exact absurd rfl (hNoLink target)
                | _ => rfl
              exact ⟨_, .plain hName hItem hPlain hSteps⟩

end

theorem leads_of_follow {depth : Nat} {active : List (List String)} {path names last : List String}
    (h : tree.follow depth active path names = .ok last) : ∃ steps, tree.Leads steps path names last := by
  induction depth generalizing active path names last with
  | zero => exact leads_of_followWith (fun hNone => by cases hNone) h
  | succ depth ih => exact leads_of_followWith ih h

/-- A link whose target leads somewhere, over at least so many names. -/
def Pending (tree : LinkedTree) (steps : Nat) (place : List String) : Prop :=
  ∃ path name target inner middle, place = path ++ [name] ∧ tree.lstat place = .ok (.link target) ∧
    tree.Leads inner (start path target) (targetNames target) middle ∧ steps ≤ inner

theorem Pending.less {steps fewer : Nat} {place : List String} (pending : tree.Pending steps place)
    (hFewer : fewer ≤ steps) : tree.Pending fewer place := by
  obtain ⟨path, name, target, inner, middle, hPlace, hItem, hLeads, hSteps⟩ := pending
  exact ⟨path, name, target, inner, middle, hPlace, hItem, hLeads, hFewer.trans hSteps⟩

/-- The links that are being followed: distinct links of the tree, all of them behind
names that are still to be gone over. -/
structure Following (tree : LinkedTree) (steps depth : Nat) (active : List (List String)) : Prop where
  distinct : active.Nodup
  listed : active ⊆ tree.links
  pending : ∀ place ∈ active, tree.Pending steps place
  deep : tree.links.length ≤ depth + active.length

theorem Following.less {steps fewer depth : Nat} {active : List (List String)} (following : tree.Following steps depth active)
    (hFewer : fewer ≤ steps) : tree.Following fewer depth active :=
  { following with pending := fun place hPlace => (following.pending place hPlace).less hFewer }

/-- A link whose target leads somewhere is not among those that are being followed. -/
theorem Following.fresh {steps depth inner : Nat} {active : List (List String)} {path middle : List String}
    {name target : String} (following : tree.Following steps depth active)
    (hItem : tree.lstat (path ++ [name]) = .ok (.link target))
    (followed : tree.Leads inner (start path target) (targetNames target) middle) (hInner : inner < steps) :
    path ++ [name] ∉ active := by
  intro hActive
  obtain ⟨other, otherName, otherTarget, otherInner, otherMiddle, hPlace, hOther, hLeads, hSteps⟩ :=
    following.pending _ hActive
  obtain ⟨rfl, hNames⟩ := List.append_inj' hPlace rfl
  obtain rfl := List.cons.inj hNames |>.1
  obtain rfl := Item.link.inj (Except.ok.inj (hItem.symm.trans hOther))
  obtain ⟨rfl, -⟩ := followed.unique hLeads
  omega

/-- What is followed next, one level deeper. -/
theorem Following.push {steps depth inner : Nat} {active : List (List String)} {path middle : List String}
    {name target : String} (following : tree.Following steps depth active) (real : IsReal tree.lstat path)
    (hItem : tree.lstat (path ++ [name]) = .ok (.link target))
    (followed : tree.Leads inner (start path target) (targetNames target) middle) (hInner : inner < steps) :
    ∃ less, depth = less + 1 ∧ tree.Following inner less ((path ++ [name]) :: active) := by
  have hDistinct : ((path ++ [name]) :: active).Nodup :=
    List.nodup_cons.mpr ⟨following.fresh hItem followed hInner, following.distinct⟩
  have hListed : (path ++ [name]) :: active ⊆ tree.links :=
    List.cons_subset.mpr ⟨tree.listed path name target real hItem, following.listed⟩
  have hCount := (List.subperm_of_subset hDistinct hListed).length_le
  have hDeep := following.deep
  rw [List.length_cons] at hCount
  refine ⟨depth - 1, by omega, hDistinct, hListed, ?_, by rw [List.length_cons]; omega⟩
  intro place hPlace
  rcases List.mem_cons.mp hPlace with rfl | hOld
  · exact ⟨path, name, target, inner, middle, rfl, hItem, followed, Nat.le_refl _⟩
  · exact (following.pending place hOld).less (Nat.le_of_lt hInner)

theorem follow_step (depth : Nat) : ∃ next, tree.follow depth = tree.followWith next ∧
    ∀ less, depth = less + 1 → next = tree.follow less := by
  cases depth with
  | zero => exact ⟨_, rfl, fun less hLess => by omega⟩
  | succ depth =>
      refine ⟨_, rfl, ?_⟩
      intro less hLess
      obtain rfl := Nat.succ.inj hLess
      rfl

/-- What names lead to is found. -/
theorem Leads.follow {steps depth : Nat} {active : List (List String)} {path names last : List String}
    (leads : tree.Leads steps path names last) (real : IsReal tree.lstat path)
    (following : tree.Following steps depth active) : tree.follow depth active path names = .ok last := by
  induction leads generalizing depth active with
  | done path =>
      cases depth <;> rfl
  | @parent steps path rest last further ih =>
      have hRest := ih (real.front (List.dropLast_prefix _)) (following.less (Nat.le_succ _))
      obtain ⟨next, hNext, -⟩ := @follow_step tree depth
      rw [hNext] at hRest ⊢
      rw [followWith, if_pos rfl, hRest]
  | @plain steps path rest last name item hName hItem hPlain further ih =>
      have hRest := ih (real.append hItem hPlain) (following.less (Nat.le_succ _))
      obtain ⟨next, hNext, -⟩ := @follow_step tree depth
      rw [hNext] at hRest ⊢
      rw [followWith, if_neg hName, hItem]
      cases item with
      | link target => cases hPlain
      | directory => exact hRest
      | file => exact hRest
  | @link inner steps path middle rest last name target hName hItem followed further ihFollowed ihFurther =>
      have hInner : inner < inner + steps + 1 := by omega
      obtain ⟨less, hDepth, pushed⟩ := following.push real hItem followed hInner
      have hMiddle := ihFollowed (isReal_start real target) pushed
      have hRest := ihFurther (followed.real (isReal_start real target)) (following.less (by omega))
      have hFresh := following.fresh hItem followed hInner
      obtain ⟨next, hNext, hLess⟩ := @follow_step tree depth
      rw [hNext] at hRest ⊢
      simp only [followWith, if_neg hName, hItem, if_neg hFresh, hLess less hDepth, hMiddle]
      rwa [hLess less hDepth] at hRest

/-- The real path of names is where they lead, and there is none when they lead nowhere. -/
theorem realpath_eq_ok {names last : List String} :
    tree.realpath names = .ok last ↔ ∃ steps, tree.Leads steps [] names last := by
  constructor
  · exact leads_of_follow
  · rintro ⟨steps, leads⟩
    exact leads.follow isReal_nil ⟨List.nodup_nil, List.nil_subset _, by simp, Nat.le_refl _⟩

/-- Names one after the other lead to where the last of them do. -/
theorem Leads.split {steps : Nat} {path front back last : List String}
    (leads : tree.Leads steps path (front ++ back) last) :
    ∃ first second middle, tree.Leads first path front middle ∧ tree.Leads second middle back last := by
  induction front generalizing steps path with
  | nil => exact ⟨0, steps, path, .done path, leads⟩
  | cons name rest ih =>
      cases leads with
      | parent further =>
          obtain ⟨first, second, middle, hFront, hBack⟩ := ih further
          exact ⟨_, second, middle, .parent hFront, hBack⟩
      | plain hName hItem hPlain further =>
          obtain ⟨first, second, middle, hFront, hBack⟩ := ih further
          exact ⟨_, second, middle, .plain hName hItem hPlain hFront, hBack⟩
      | link hName hItem followed further =>
          obtain ⟨first, second, middle, hFront, hBack⟩ := ih further
          exact ⟨_, second, middle, .link hName hItem followed hFront, hBack⟩

/-- Where the names below a real path lead. -/
theorem realpath_append {path back last : List String} (real : IsReal tree.lstat path) (hNames : ".." ∉ path) :
    tree.realpath (path ++ back) = .ok last ↔ ∃ steps, tree.Leads steps path back last := by
  obtain ⟨first, toPath⟩ := leads_self real hNames
  rw [realpath_eq_ok]
  constructor
  · rintro ⟨steps, leads⟩
    obtain ⟨_, second, middle, hFront, hBack⟩ := leads.split
    obtain ⟨-, rfl⟩ := toPath.unique hFront
    exact ⟨second, hBack⟩
  · rintro ⟨steps, leads⟩
    exact ⟨_, toPath.append leads⟩

end

end LinkedTree
