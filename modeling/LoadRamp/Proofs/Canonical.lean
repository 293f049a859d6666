import LoadRamp.Proofs.Entries
import LoadRamp.Proofs.Fingerprint
import LoadRamp.Proofs.Journal

/-!
# What a fingerprint does not depend on

The variables of a summary are kept without an order of their own.  They are put in
order before the digest is taken, so the bytes of a configuration are the same
however the variables were set, in whatever order they are met, and also after the
summary was written and read again.

* `fingerprint_of_writtenAs`: the order in which the variables are met leaves the
  digest as it is.
* `SameConfiguration.fingerprint_eq`: nor does anything matter that is no part of
  the configuration.
* `fingerprint_of_configuration` puts these together with the ways in which
  variables are set and summaries are read.
-/

namespace LoadRamp
namespace Summary

open Ordered (Ascending textBefore strict_textBefore find? last?)
open Text.Utf8 (encode)

/-! ## Configurations -/

/-- The parts of two configurations besides the variables are the same. -/
structure SameProfile (s t : Summary) : Prop where
  scenarioName : s.scenarioName = t.scenarioName
  startTarget : s.startTarget = t.startTarget
  stages : s.stages = t.stages
  version : s.version = t.version

/-- Two summaries are of one configuration: the variables have the same values as well, and
nothing is said of the order they are met in or of what is no part of the configuration. -/
structure SameConfiguration (s t : Summary) : Prop extends s.SameProfile t where
  env : ∀ name, find? name s.env = find? name t.env

/-- Summaries of one configuration are arranged to the same bytes. -/
theorem SameConfiguration.fingerprint_eq {s t : Summary} (h : s.SameConfiguration t)
    (hs : (s.env.map Prod.fst).Nodup) (ht : (t.env.map Prod.fst).Nodup) :
    s.fingerprint = t.fingerprint := by
  have henv : s.arranged.env = t.arranged.env :=
    (Ordered.arrange_eq_iff strict_textBefore hs ht).2 h.env
  have hinput : s.arranged.fingerprintInput = t.arranged.fingerprintInput := by
    rw [fingerprintInput_eq, fingerprintInput_eq, henv]
    simp only [arranged, h.scenarioName, h.startTarget, h.stages, h.version]
  rw [fingerprint, fingerprint, hinput]

/-! ## Variables in any order -/

theorem writtenAs_self (s : Summary) : s.WrittenAs s := ⟨.refl _, rfl⟩

theorem fingerprint_eq {s held : Summary} (h : Ascending textBefore s.env)
    (hheld : held.WrittenAs s) :
    held.fingerprint = Digest.Sha3.hex (Digest.Sha3.digest s.fingerprintInput) := by
  obtain ⟨hperm, hrest⟩ := hheld
  have harranged : held.arranged = s := by
    rw [arranged, Ordered.arrange_eq_of_perm strict_textBefore h hperm]
    exact hrest
  rw [fingerprint, harranged]

/-- The order in which the variables of a summary are met leaves its fingerprint as it is. -/
theorem fingerprint_of_writtenAs {s held : Summary} (h : Ascending textBefore s.env)
    (hheld : held.WrittenAs s) : held.fingerprint = s.fingerprint := by
  rw [fingerprint_eq h hheld, fingerprint_eq h s.writtenAs_self]

/-! ## Variables set one after the other -/

/-- The summary after some variables are set. -/
def withVariables (s : Summary) (entries : List (String × String)) : Summary :=
  entries.foldl (fun s entry => s.withVariable entry.1 entry.2) s

theorem withVariables_eq (s : Summary) (entries : List (String × String)) :
    s.withVariables entries = { s with env := Ordered.insertAll textBefore s.env entries } := by
  induction entries generalizing s with
  | nil => rfl
  | cons entry entries ih => exact ih (s.withVariable entry.1 entry.2)

theorem ascending_withVariables {s : Summary} (h : Ascending textBefore s.env)
    (entries : List (String × String)) : Ascending textBefore (s.withVariables entries).env := by
  rw [withVariables_eq]
  exact Ordered.ascending_insertAll strict_textBefore h entries

/-- Variables that come to the same values make one configuration, however they were set. -/
theorem SameProfile.withVariables {s t : Summary} (h : s.SameProfile t)
    (hs : Ascending textBefore s.env) (ht : Ascending textBefore t.env)
    {first second : List (String × String)}
    (hfinal : ∀ name,
      (last? name first).or (find? name s.env) = (last? name second).or (find? name t.env)) :
    (s.withVariables first).SameConfiguration (t.withVariables second) := by
  rw [withVariables_eq, withVariables_eq]
  refine ⟨⟨h.scenarioName, h.startTarget, h.stages, h.version⟩, fun name => ?_⟩
  calc find? name (Ordered.insertAll textBefore s.env first)
    _ = (last? name first).or (find? name s.env) :=
        Ordered.find?_insertAll strict_textBefore hs first name
    _ = (last? name second).or (find? name t.env) := hfinal name
    _ = find? name (Ordered.insertAll textBefore t.env second) :=
        (Ordered.find?_insertAll strict_textBefore ht second name).symm

/-! ## All together -/

/-- The fingerprint of a summary is a digest of its configuration and depends on nothing else.
Two summaries of one configuration have one fingerprint, in whatever order their variables are met
and whatever their other fields are.  So do two summaries whose variables were set in different
ways that come to the same values, and a summary that was written and read again. -/
theorem fingerprint_of_configuration :
    (∀ s held : Summary, s.Sound → held.WrittenAs s →
      held.fingerprint = Digest.Sha3.hex (Digest.Sha3.digest s.fingerprintInput)) ∧
    (∀ s t : Summary, (s.env.map Prod.fst).Nodup → (t.env.map Prod.fst).Nodup →
      s.SameConfiguration t → s.fingerprint = t.fingerprint) ∧
    (∀ (s t : Summary) (first second : List (String × String)), s.SameProfile t →
      Ascending textBefore s.env → Ascending textBefore t.env →
      (∀ name,
        (last? name first).or (find? name s.env) = (last? name second).or (find? name t.env)) →
      ∀ held held' : Summary, held.WrittenAs (s.withVariables first) →
        held'.WrittenAs (t.withVariables second) → held.fingerprint = held'.fingerprint) ∧
    (∀ s written : Summary, s.Sound → written.WrittenAs s →
      ∃ loaded, load (encode written.store) = .ok loaded ∧
        ∀ held : Summary, held.WrittenAs loaded → held.fingerprint = written.fingerprint) := by
  refine ⟨fun s held hs hheld => fingerprint_eq hs.env hheld,
    fun s t hs ht hsame => hsame.fingerprint_eq hs ht, ?_, ?_⟩
  · intro s t first second hprofile hs ht hfinal held held' hheld hheld'
    have hfirst := ascending_withVariables hs first
    have hsecond := ascending_withVariables ht second
    have hsame := hprofile.withVariables hs ht hfinal
    calc held.fingerprint
      _ = (s.withVariables first).fingerprint := fingerprint_of_writtenAs hfirst hheld
      _ = (t.withVariables second).fingerprint :=
          hsame.fingerprint_eq (hfirst.nodup_keys strict_textBefore)
            (hsecond.nodup_keys strict_textBefore)
      _ = held'.fingerprint := (fingerprint_of_writtenAs hsecond hheld').symm
  · intro s written hs hwritten
    refine ⟨s, load_store hs hwritten, fun held hheld => ?_⟩
    rw [fingerprint_of_writtenAs hs.env hheld, fingerprint_of_writtenAs hs.env hwritten]

/-- Three variables that are set in two ways, one of them twice, and met in two orders, in runs that
differ in all that is no part of the configuration. -/
theorem fingerprint_of_configuration_orders :
    let s := make "run-1" "browse" 0 [⟨30000, 10⟩] 0 "0.1.0"
    let t := { (make "run-2" "browse" 1700000000 [⟨30000, 10⟩] 0 "0.1.0") with
      runDuration := 7, peakUsers := 10, checksPassed := 40, checksFailed := 2, iterations := 14 }
    let first := [("REGION", "eu1"), ("BASE_URL", "http://a"), ("TIER", "")]
    let second := [("TIER", ""), ("REGION", "us1"), ("BASE_URL", "http://a"), ("REGION", "eu1")]
    let held := { s with env := [("TIER", ""), ("BASE_URL", "http://a"), ("REGION", "eu1")] }
    let held' := { t with env := [("REGION", "eu1"), ("TIER", ""), ("BASE_URL", "http://a")] }
    held.WrittenAs (s.withVariables first) ∧ held'.WrittenAs (t.withVariables second) ∧
      held.fingerprint = held'.fingerprint ∧
      ∃ loaded, load (encode held.store) = .ok loaded ∧ loaded.fingerprint = held'.fingerprint := by
  intro s t first second held held'
  have hlast : ∀ name, last? name first = last? name second := by
    intro name
    simp only [last?, first, second, List.reverse_cons, List.reverse_nil, List.nil_append,
      List.cons_append, Ordered.find?_cons]
    grind
  have hfinal : ∀ name,
      (last? name first).or (find? name s.env) = (last? name second).or (find? name t.env) := by
    intro name
    rw [hlast]
    rfl
  have hheld : held.WrittenAs (s.withVariables first) := ⟨by decide, rfl⟩
  have hheld' : held'.WrittenAs (t.withVariables second) := ⟨by decide, rfl⟩
  obtain ⟨-, -, hset, hread⟩ := fingerprint_of_configuration
  have hequal := hset s t first second ⟨rfl, rfl, rfl, rfl⟩ .nil .nil hfinal held held' hheld hheld'
  have hsound : (s.withVariables first).Sound := by constructor <;> decide
  obtain ⟨loaded, hload, hloaded⟩ := hread _ held hsound hheld
  exact ⟨hheld, hheld', hequal, loaded, hload, (hloaded loaded loaded.writtenAs_self).trans hequal⟩

end Summary
end LoadRamp
