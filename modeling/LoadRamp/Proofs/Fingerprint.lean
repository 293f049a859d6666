import LoadRamp.Proofs.Octets
import LoadRamp.Summary

/-!
# What a fingerprint tells apart

The digest of a summary is taken of its configuration: texts of any length, words
of eight bytes and stages of sixteen, one after the other with nothing between
them.

* Configurations whose parts have the same lengths are told apart, and so is a
  change of the name, of the start target, of the stages or of the version alone
  (`fingerprintInput_tells_apart`).
* Different configurations are not always told apart
  (`not_fingerprintInput_injective`): the end of a variable's name is the same
  byte as the beginning of its value.
-/

namespace LoadRamp
namespace Summary

open Text.Utf8 (encode encode_injective)

/-! ## Words and blocks -/

/-- Numbers of `count` bytes are equal when their bytes are. -/
theorem eq_of_bytes {count a b : Nat} (ha : a < 256 ^ count) (hb : b < 256 ^ count)
    (h : ∀ i < count, a / 256 ^ i % 256 = b / 256 ^ i % 256) : a = b := by
  induction count generalizing a b with
  | zero => omega
  | succ count ih =>
    have hlow : a % 256 = b % 256 := by simpa using h 0 (Nat.succ_pos count)
    have hhigh : a / 256 = b / 256 := by
      have hless {n : Nat} (hn : n < 256 ^ (count + 1)) : n / 256 < 256 ^ count :=
        Nat.div_lt_of_lt_mul (by rwa [Nat.pow_succ, Nat.mul_comm] at hn)
      refine ih (hless ha) (hless hb) fun i hi => ?_
      have hnext := h (i + 1) (Nat.succ_lt_succ hi)
      simpa only [Nat.pow_succ', ← Nat.div_div_eq_div_mul] using hnext
    omega

@[simp] theorem length_wordBytes (n : Nat) : (wordBytes n).length = 8 := by
  simp [wordBytes]

theorem wordBytes_inj {a b : Nat} (ha : a < wordLimit) (hb : b < wordLimit) :
    wordBytes a = wordBytes b ↔ a = b := by
  refine ⟨fun h => @eq_of_bytes 8 _ _ ha hb fun i hi => ?_, congrArg wordBytes⟩
  have hbyte := congrArg (fun bytes => bytes[i]?) h
  simp only [wordBytes, List.getElem?_map, List.getElem?_range hi, Option.map_some,
    Option.some.injEq, ← UInt8.toNat_inj] at hbyte
  exact hbyte

/-- A list is known from the blocks of its elements when all blocks have one length. -/
theorem flatMap_inj {α β : Type} {block : α → List β} {size : Nat} (hsize : 0 < size)
    (hlength : ∀ a, (block a).length = size) {as bs : List α}
    (hinj : ∀ a ∈ as, ∀ b ∈ bs, block a = block b → a = b)
    (h : as.flatMap block = bs.flatMap block) : as = bs := by
  have hnil {a : α} {rest : List α} : (a :: rest).flatMap block ≠ [] := fun h => by
    have := congrArg List.length h
    simp only [List.flatMap_cons, List.length_append, hlength, List.length_nil] at this
    omega
  induction as generalizing bs with
  | nil =>
    cases bs with
    | nil => rfl
    | cons b bs => exact absurd h.symm hnil
  | cons a as ih =>
    cases bs with
    | nil => exact absurd h hnil
    | cons b bs =>
      rw [List.flatMap_cons, List.flatMap_cons] at h
      obtain ⟨hfirst, hrest⟩ := List.append_inj h (by rw [hlength, hlength])
      have hhead : a = b := hinj a List.mem_cons_self b List.mem_cons_self hfirst
      have htail : as = bs := ih
        (fun x hx y hy => hinj x (List.mem_cons_of_mem a hx) y (List.mem_cons_of_mem b hy)) hrest
      rw [hhead, htail]

/-! ## The parts of a configuration -/

/-- Both numbers of a stage. -/
def stageBytes (stage : StageSummary) : List UInt8 :=
  wordBytes stage.durationMs ++ wordBytes stage.target

@[simp] theorem length_stageBytes (stage : StageSummary) : (stageBytes stage).length = 16 := by
  simp [stageBytes]

/-- Name and value of a variable. -/
def variableBytes (entry : String × String) : List UInt8 := encode entry.1 ++ encode entry.2

theorem fingerprintInput_eq (s : Summary) :
    s.fingerprintInput = encode s.scenarioName ++ wordBytes s.startTarget ++
      s.stages.flatMap stageBytes ++ s.env.flatMap variableBytes ++ encode s.version := rfl

theorem stages_inj {as bs : List StageSummary}
    (has : ∀ stage ∈ as, stage.durationMs < wordLimit ∧ stage.target < wordLimit)
    (hbs : ∀ stage ∈ bs, stage.durationMs < wordLimit ∧ stage.target < wordLimit) :
    as.flatMap stageBytes = bs.flatMap stageBytes ↔ as = bs := by
  refine ⟨flatMap_inj (by decide : 0 < 16) length_stageBytes fun a ha b hb h => ?_,
    congrArg (List.flatMap stageBytes)⟩
  obtain ⟨hduration, htarget⟩ := List.append_inj h (by simp)
  cases a
  cases b
  rw [StageSummary.mk.injEq]
  exact ⟨(wordBytes_inj (has _ ha).1 (hbs _ hb).1).1 hduration,
    (wordBytes_inj (has _ ha).2 (hbs _ hb).2).1 htarget⟩

/-- How many bytes the name and the value of a variable take. -/
def variableShape (entry : String × String) : Nat × Nat :=
  ((encode entry.1).length, (encode entry.2).length)

theorem length_flatMap_variableBytes {as bs : List (String × String)}
    (hshape : as.map variableShape = bs.map variableShape) :
    (as.flatMap variableBytes).length = (bs.flatMap variableBytes).length := by
  have hsum (env : List (String × String)) : (env.flatMap variableBytes).length =
      ((env.map variableShape).map fun shape => shape.1 + shape.2).sum := by
    simp [List.length_flatMap, variableBytes, variableShape, Function.comp_def]
  rw [hsum, hsum, hshape]

theorem variables_inj {as bs : List (String × String)}
    (hshape : as.map variableShape = bs.map variableShape)
    (h : as.flatMap variableBytes = bs.flatMap variableBytes) : as = bs := by
  induction as generalizing bs with
  | nil => exact (List.map_eq_nil_iff.1 hshape.symm).symm
  | cons a as ih =>
    cases bs with
    | nil => cases hshape
    | cons b bs =>
      rw [List.map_cons, List.map_cons, List.cons.injEq] at hshape
      obtain ⟨hname, hvalue⟩ := Prod.mk.inj hshape.1
      simp only [List.flatMap_cons, variableBytes, List.append_assoc] at h
      obtain ⟨hname, h⟩ := List.append_inj h hname
      obtain ⟨hvalue, h⟩ := List.append_inj h hvalue
      have hhead : a = b := Prod.ext (encode_injective hname) (encode_injective hvalue)
      rw [hhead, ih hshape.2 h]

/-! ## Whole configurations -/

/-- The lengths of the parts that have no fixed length: name, stages and variables. -/
def shape (s : Summary) : Nat × Nat × List (Nat × Nat) :=
  ((encode s.scenarioName).length, s.stages.length, s.env.map variableShape)

/-- Configurations of one shape are told apart. -/
theorem fingerprintInput_eq_iff {s t : Summary} (hs : s.Sound) (ht : t.Sound)
    (hshape : s.shape = t.shape) :
    s.fingerprintInput = t.fingerprintInput ↔ s.configuration = t.configuration := by
  simp only [shape, Prod.mk.injEq] at hshape
  obtain ⟨hname, hstages, henv⟩ := hshape
  have hblocks : (s.stages.flatMap stageBytes).length = (t.stages.flatMap stageBytes).length := by
    simp [List.length_flatMap, List.map_const', hstages]
  simp only [configuration, Prod.mk.injEq]
  constructor
  · intro h
    simp only [fingerprintInput_eq, List.append_assoc] at h
    -- Each part begins where the one before it ends.
    obtain ⟨hname, h⟩ := List.append_inj h hname
    obtain ⟨hstart, h⟩ := List.append_inj h (by simp)
    obtain ⟨hstages, h⟩ := List.append_inj h hblocks
    obtain ⟨hvariables, hversion⟩ := List.append_inj h (length_flatMap_variableBytes henv)
    exact ⟨encode_injective hname, (wordBytes_inj hs.startTarget ht.startTarget).1 hstart,
      (stages_inj hs.stages ht.stages).1 hstages, variables_inj henv hvariables,
      encode_injective hversion⟩
  · rintro ⟨hname, hstart, hstages, hvariables, hversion⟩
    rw [fingerprintInput_eq, fingerprintInput_eq, hname, hstart, hstages, hvariables, hversion]

/-- What the bytes of a configuration tell apart.  Two configurations of the same shape have the
same bytes only if they are the same, and a change of one part alone shows: of the name, the
start target, the stages or the version always, and of the variables if their names and values,
written without a gap, are not the same text. -/
theorem fingerprintInput_tells_apart (s : Summary) (hs : s.Sound) :
    (∀ t : Summary, t.Sound → s.shape = t.shape →
      (s.fingerprintInput = t.fingerprintInput ↔ s.configuration = t.configuration)) ∧
    (∀ name, { s with scenarioName := name }.fingerprintInput = s.fingerprintInput ↔
      name = s.scenarioName) ∧
    (∀ target < wordLimit, { s with startTarget := target }.fingerprintInput =
      s.fingerprintInput ↔ target = s.startTarget) ∧
    (∀ stages : List StageSummary,
      (∀ stage ∈ stages, stage.durationMs < wordLimit ∧ stage.target < wordLimit) →
        ({ s with stages := stages }.fingerprintInput = s.fingerprintInput ↔
          stages = s.stages)) ∧
    (∀ version, { s with version := version }.fingerprintInput = s.fingerprintInput ↔
      version = s.version) ∧
    (∀ env : List (String × String), { s with env := env }.fingerprintInput =
      s.fingerprintInput ↔ env.flatMap variableBytes = s.env.flatMap variableBytes) := by
  refine ⟨fun t ht => fingerprintInput_eq_iff hs ht, fun name => ?_, fun target htarget => ?_,
    fun stages hstages => ?_, fun version => ?_, fun env => ?_⟩
  all_goals simp only [fingerprintInput_eq, List.append_cancel_left_eq, List.append_cancel_right_eq]
  · exact ⟨encode_injective, congrArg encode⟩
  · exact wordBytes_inj htarget hs.startTarget
  · exact stages_inj hstages hs.stages
  · exact ⟨encode_injective, congrArg encode⟩

/-- A configuration of each kind of part, next to one that differs from it in the version and in
the value of a variable. -/
theorem fingerprintInput_tells_apart_values :
    let s := ((make "run-1" "browse" 0 [⟨30000, 10⟩, ⟨0, 20⟩] 1 "0.1.0").withVariable
      "REGION" "eu1").withVariable "BASE_URL" "http://a"
    let t := { s with env := [("BASE_URL", "http://b"), ("REGION", "eu2")], version := "0.1.1" }
    s.Sound ∧ t.Sound ∧ s.shape = t.shape ∧ s.fingerprintInput ≠ t.fingerprintInput := by
  intro s t
  have hs : s.Sound := by constructor <;> decide
  have ht : t.Sound := by constructor <;> decide
  have hshape : s.shape = t.shape := by decide +kernel
  refine ⟨hs, ht, hshape, fun h => ?_⟩
  have hsame := ((fingerprintInput_tells_apart s hs).1 t ht hshape).1 h
  exact absurd hsame (by decide)

/-- Two configurations with one variable each.  The names differ and the values differ, but not
what they are written one after the other. -/
theorem not_fingerprintInput_injective :
    let s := (make "run-1" "browse" 0 [⟨30000, 10⟩] 0 "0.1.0").withVariable "REGION" "eu1"
    let t := (make "run-1" "browse" 0 [⟨30000, 10⟩] 0 "0.1.0").withVariable "REGIONeu" "1"
    s.Sound ∧ t.Sound ∧ s.configuration ≠ t.configuration ∧
      s.fingerprintInput = t.fingerprintInput := by
  intro s t
  refine ⟨by constructor <;> decide, by constructor <;> decide, by decide, ?_⟩
  have hbytes : s.env.flatMap variableBytes = t.env.flatMap variableBytes := by decide +kernel
  rw [fingerprintInput_eq, fingerprintInput_eq, hbytes]
  rfl

end Summary
end LoadRamp
