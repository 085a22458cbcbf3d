import Mathlib.Data.List.Basic
import Mathlib.Tactic.Lemma
import SigV4.Config
import SigV4.Identity.Provider

/-!
Variables that are set but empty.

An identity is read from the environment as if empty variables were not there. A configuration is
too, unless its region is to come from two variables of which the particular one is empty: it then
shadows the general one, and the region stays empty.
-/

namespace SigV4

namespace Environment

variable {e : Environment} {name : String} {vars : List (String × String)}

/-- The environment without the variables that are empty. -/
def withoutEmpty (e : Environment) : Environment := ⟨fun name => (e.var? name).filter (· ≠ "")⟩

/-- The variable has a value that is not empty. -/
def Provides (e : Environment) (name : String) : Prop := ∃ v, v ≠ "" ∧ e.var? name = some v

/-- The particular variable for the region is empty, and the general one is not. -/
def ShadowsRegion (e : Environment) : Prop :=
  e.var? region = some "" ∧ e.Provides defaultRegion

/-! ### What is left without empty variables -/

lemma find?_filter_of_nodup (hnames : (vars.map Prod.fst).Nodup) :
    ((vars.filter fun v => v.2 ≠ "").find? fun v => v.1 = name).map Prod.snd =
      ((vars.find? fun v => v.1 = name).map Prod.snd).filter (· ≠ "") := by
  induction vars with
  | nil => rfl
  | cons v vars ih =>
    rw [List.map_cons, List.nodup_cons] at hnames
    by_cases hname : v.1 = name
    · by_cases hv : v.2 = ""
      · -- The name is met nowhere else, so nothing takes the place of the empty value.
        have hnone : ((vars.filter fun v => v.2 ≠ "").find? fun v => v.1 = name) = none := by
          rw [List.find?_eq_none]
          intro w hw hwname
          have hmem := List.mem_map_of_mem (f := Prod.fst) (List.mem_of_mem_filter hw)
          rw [of_decide_eq_true hwname, ← hname] at hmem
          exact hnames.1 hmem
        rw [List.filter_cons_of_neg (by simpa using hv), hnone, List.find?_cons_of_pos (by simpa)]
        simp [hv, Option.filter]
      · rw [List.filter_cons_of_pos (by simpa using hv), List.find?_cons_of_pos (by simpa),
          List.find?_cons_of_pos (by simpa)]
        simp [hv, Option.filter]
    · rw [List.find?_cons_of_neg (by simpa), ← ih hnames.2]
      by_cases hv : v.2 = ""
      · rw [List.filter_cons_of_neg (by simpa using hv)]
      · rw [List.filter_cons_of_pos (by simpa using hv), List.find?_cons_of_neg (by simpa)]

/-- **Of variables with a name of their own each, the empty ones are left out.** -/
lemma withoutEmpty_ofList (hnames : (vars.map Prod.fst).Nodup) :
    (ofList vars).withoutEmpty = ofList (vars.filter fun v => v.2 ≠ "") := by
  have hreverse : (vars.reverse.map Prod.fst).Nodup :=
    ((List.reverse_perm vars).map Prod.fst).nodup_iff.2 hnames
  unfold withoutEmpty ofList
  rw [← List.filter_reverse]
  exact congrArg _ (funext fun name => (find?_filter_of_nodup hreverse).symm)

lemma getD_withoutEmpty (e : Environment) (name : String) :
    (e.withoutEmpty.var? name).getD "" = (e.var? name).getD "" := by
  show ((e.var? name).filter (· ≠ "")).getD "" = (e.var? name).getD ""
  cases e.var? name with
  | none => rfl
  | some v => by_cases hv : v = "" <;> simp [hv, Option.filter]

lemma provides_iff (e : Environment) (name : String) :
    e.Provides name ↔ (e.var? name).getD "" ≠ "" := by
  unfold Provides
  cases h : e.var? name with
  | none => simp
  | some v => simp

lemma var?_withoutEmpty_of_empty (h : e.var? name = some "") : e.withoutEmpty.var? name = none := by
  simp [withoutEmpty, h, Option.filter]

lemma var?_withoutEmpty_of_ne (h : e.var? name ≠ some "") :
    e.withoutEmpty.var? name = e.var? name := by
  show (e.var? name).filter (· ≠ "") = e.var? name
  cases hv : e.var? name with
  | none => rfl
  | some v =>
    have hne : v ≠ "" := fun hempty => h (hempty ▸ hv)
    simp [hne, Option.filter]

/-! ### What is read -/

lemma nonemptyVar?_withoutEmpty (e : Environment) (name : String) :
    Provider.nonemptyVar? e.withoutEmpty name = Provider.nonemptyVar? e name := by
  unfold Provider.nonemptyVar? withoutEmpty
  rw [Option.filter_filter]
  simp

lemma resolve_withoutEmpty (e : Environment) :
    (Provider.environment e.withoutEmpty).resolve = (Provider.environment e).resolve := by
  unfold Provider.resolve
  simp only [nonemptyVar?_withoutEmpty]

/-- The region that is read, or an empty text. -/
def regionText (e : Environment) : String := ((e.var? region).or (e.var? defaultRegion)).getD ""

lemma regionText_of_none (h : e.var? region = none) :
    e.regionText = (e.var? defaultRegion).getD "" := by rw [regionText, h, Option.none_or]

lemma regionText_of_some {v : String} (h : e.var? region = some v) : e.regionText = v := by
  rw [regionText, h, Option.some_or, Option.getD_some]

/-- **The same region is read without the empty variables**, unless one of them shadows it. -/
lemma regionText_withoutEmpty_iff (e : Environment) :
    e.withoutEmpty.regionText = e.regionText ↔ ¬ e.ShadowsRegion := by
  by_cases hempty : e.var? region = some ""
  · rw [regionText_of_none (var?_withoutEmpty_of_empty hempty), regionText_of_some hempty,
      getD_withoutEmpty, ShadowsRegion, provides_iff]
    tauto
  · refine iff_of_true ?_ fun h => hempty h.1
    have hsame := var?_withoutEmpty_of_ne hempty
    cases hregion : e.var? region with
    | none =>
      rw [regionText_of_none (hsame.trans hregion), regionText_of_none hregion, getD_withoutEmpty]
    | some v => rw [regionText_of_some (hsame.trans hregion), regionText_of_some hregion]

lemma regionText_ne_empty_iff (e : Environment) :
    e.regionText ≠ "" ↔
      (e.Provides region ∨ e.Provides defaultRegion) ∧ ¬ e.ShadowsRegion := by
  cases hregion : e.var? region with
  | none =>
    rw [regionText_of_none hregion, ← provides_iff, provides_iff e region, hregion]
    simp [ShadowsRegion, hregion]
  | some v =>
    rw [regionText_of_some hregion, provides_iff, hregion, ShadowsRegion, hregion]
    by_cases hv : v = "" <;> simp [hv]

end Environment

namespace Config

variable {c : Config}

@[simp] lemma region_withRegion (c : Config) (text : String) : (c.withRegion text).region = text :=
  rfl

lemma withRegion_inj {s t : String} : c.withRegion s = c.withRegion t ↔ s = t :=
  ⟨fun h => congrArg Config.region h, fun h => h ▸ rfl⟩

lemma value_fromEnvironment (c : Config) (e : Environment) : (c.fromEnvironment e).value =
    if c.region = "" then c.withRegion e.regionText else c := by
  unfold fromEnvironment Environment.regionText
  split_ifs with h
  · split
    · next region hregion => rw [hregion]; rfl
    · next hregion => rw [hregion, Option.getD_none, withRegion, ← h]; rfl
  · rfl

/-- **Empty variables are taken for missing ones**, in the identity always, and in the region unless
the particular variable is empty and the general one is needed. -/
theorem fromEnvironment_withoutEmpty_iff (c : Config) (e : Environment) :
    (Provider.environment e.withoutEmpty).resolve = (Provider.environment e).resolve ∧
      ((c.fromEnvironment e.withoutEmpty).value = (c.fromEnvironment e).value ↔
        ¬ (c.region = "" ∧ e.ShadowsRegion)) ∧
      ((c.fromEnvironment e).value.region ≠ "" ↔
        (c.region ≠ "" ∨ e.Provides Environment.region ∨ e.Provides Environment.defaultRegion) ∧
          ¬ (c.region = "" ∧ e.ShadowsRegion)) := by
  refine ⟨Environment.resolve_withoutEmpty e, ?_, ?_⟩
  · rw [value_fromEnvironment, value_fromEnvironment]
    by_cases h : c.region = ""
    · rw [if_pos h, if_pos h, withRegion_inj, Environment.regionText_withoutEmpty_iff]
      simp [h]
    · simp [h]
  · rw [value_fromEnvironment]
    by_cases h : c.region = ""
    · rw [if_pos h, region_withRegion, Environment.regionText_ne_empty_iff]
      simp [h]
    · simp [h]

/-- An empty variable for the region in particular. -/
theorem fromEnvironment_ne_withoutEmpty :
    let vars := [("AWS_REGION", ""), ("AWS_DEFAULT_REGION", "eu-west-1")]
    let e := Environment.ofList vars
    let c := forService "demo" ""
    e.withoutEmpty = .ofList [("AWS_DEFAULT_REGION", "eu-west-1")] ∧
      (c.fromEnvironment e).value = c ∧
      (c.fromEnvironment e.withoutEmpty).value = forService "demo" "eu-west-1" := by
  intro vars e c
  have hwithout : e.withoutEmpty = .ofList (vars.filter fun v => v.2 ≠ "") :=
    Environment.withoutEmpty_ofList (by decide)
  exact ⟨hwithout, rfl, by rw [hwithout]; rfl⟩

end Config

end SigV4
