import LoadRamp.Proofs.Entries
import LoadRamp.Proofs.Octets
import LoadRamp.Proofs.Resolving

/-!
# Headers of a response

The name of a header is put into lower case when the header is set and again when
it is looked up, each time by itself.

* `Text.lower_eq_iff`: names have one lower case exactly when they are alike letter
  by letter.
* `header?_eq_some`: what is found is the value of the last call with such a name.
* `header_lookup` says this of every response, with the table of its headers and the
  check that a header is present.
-/

namespace LoadRamp

/-! ## Letters and names -/

namespace Text

/-- Two characters are the same, or they are one ASCII letter in both cases. -/
def SameLetter (c d : Char) : Prop :=
  c = d ∨ ('A' ≤ c ∧ c ≤ 'Z' ∧ d.toNat = c.toNat + 32) ∨
    ('A' ≤ d ∧ d ≤ 'Z' ∧ c.toNat = d.toNat + 32)

/-- Two texts are equal but for the case of ASCII letters. -/
def Alike (s t : String) : Prop := List.Forall₂ SameLetter s.toList t.toList

theorem toNat_lowerChar (c : Char) :
    (lowerChar c).toNat =
      if 65 ≤ c.toNat ∧ c.toNat ≤ 90 then c.toNat + 32 else c.toNat := by
  unfold lowerChar
  split
  · next hcapital =>
    have hvalid : (c.toNat + 32).isValidChar := .inl (by omega)
    rw [Char.ofNat, dif_pos hvalid]
    rfl
  · rfl

theorem lowerChar_eq_iff {c d : Char} : lowerChar c = lowerChar d ↔ SameLetter c d := by
  have hcapital (c : Char) : 'A' ≤ c ∧ c ≤ 'Z' ↔ 65 ≤ c.toNat ∧ c.toNat ≤ 90 := Iff.rfl
  rw [SameLetter, ← and_assoc, ← and_assoc, hcapital, hcapital, ← Char.toNat_inj,
    ← Char.toNat_inj, toNat_lowerChar, toNat_lowerChar]
  split <;> split <;> omega

theorem lowerChar_lowerChar (c : Char) : lowerChar (lowerChar c) = lowerChar c := by
  have hsmall := toNat_lowerChar c
  rw [← Char.toNat_inj, toNat_lowerChar (lowerChar c), if_neg]
  split at hsmall <;> omega

theorem lower_lower (s : String) : lower (lower s) = lower s := by
  simp [lower, Function.comp_def, lowerChar_lowerChar]

/-- Texts have one lower case exactly when they are alike. -/
theorem lower_eq_iff {s t : String} : lower s = lower t ↔ Alike s t := by
  rw [lower, lower, String.ofList_inj, ← List.forall₂_eq_eq_eq, List.forall₂_map_left_iff,
    List.forall₂_map_right_iff]
  simp only [lowerChar_eq_iff]
  rfl

instance (s t : String) : Decidable (Alike s t) := decidable_of_iff _ lower_eq_iff

end Text

theorem Check.passes_iff {check : Check} {response : Http.Response} :
    check.evaluate response = .passed ↔ check.verdict response = .decided true := by
  unfold evaluate
  split <;> simp_all

/-! ## Tables of headers -/

namespace Http
namespace Response

open Ordered (Ascending textBefore strict_textBefore find? last?)
open Text (Alike lower)

/-- The response after some headers are set one after the other. -/
def withHeaders (r : Response) (calls : List (String × String)) : Response :=
  calls.foldl (fun r call => r.withHeader call.1 call.2) r

theorem headers_withHeaders (r : Response) (calls : List (String × String)) :
    (r.withHeaders calls).headers = Ordered.insertAll textBefore r.headers
      (calls.map fun call => (lower call.1, call.2)) := by
  induction calls generalizing r with
  | nil => rfl
  | cons call calls ih => exact ih (r.withHeader call.1 call.2)

variable {status : Nat} {body : List UInt8} {calls : List (String × String)} {name : String}

/-- A response that no header has been set in. -/
def bare (status : Nat) (body : List UInt8) : Response := (ofStatus status).withBody body

theorem ascending_headers :
    Ascending textBefore ((bare status body).withHeaders calls).headers := by
  rw [headers_withHeaders]
  exact Ordered.ascending_insertAll strict_textBefore .nil _

theorem find?_headers (key : String) :
    find? key ((bare status body).withHeaders calls).headers =
      last? key (calls.map fun call => (lower call.1, call.2)) := by
  rw [headers_withHeaders]
  exact (Ordered.find?_insertAll strict_textBefore .nil _ key).trans Option.or_none

/-- What is found under a name is the value of the last call with a name that is alike. -/
theorem header?_eq_some {value : String} :
    ((bare status body).withHeaders calls).header? name = some value ↔
      ∃ front called back, calls = front ++ (called, value) :: back ∧ Alike called name ∧
        ∀ call ∈ back, ¬ Alike call.1 name := by
  rw [header?, find?_headers, Ordered.last?_eq_some]
  simp only [← Text.lower_eq_iff]
  constructor
  · rintro ⟨front, back, hsplit, hback⟩
    obtain ⟨front, rest, rfl, rfl, hrest⟩ := List.map_eq_append_iff.1 hsplit
    obtain ⟨⟨called, v⟩, back, rfl, hcalled, rfl⟩ := List.map_eq_cons_iff.1 hrest
    obtain ⟨hname, rfl⟩ := Prod.mk.inj hcalled
    exact ⟨front, called, back, rfl, hname, fun call hcall =>
      hback _ (List.mem_map_of_mem hcall)⟩
  · rintro ⟨front, called, back, rfl, hname, hback⟩
    refine ⟨_, _, by rw [List.map_append, List.map_cons, hname], ?_⟩
    simpa only [List.forall_mem_map] using hback

theorem header?_eq_none : ((bare status body).withHeaders calls).header? name = none ↔
    ∀ call ∈ calls, ¬ Alike call.1 name := by
  rw [header?, find?_headers, Ordered.last?_eq_none, List.forall_mem_map]
  simp only [← Text.lower_eq_iff, ne_eq]

theorem isSome_header? : (((bare status body).withHeaders calls).header? name).isSome = true ↔
    ∃ call ∈ calls, Alike call.1 name := by
  rw [Option.isSome_iff_ne_none, ne_eq, header?_eq_none]
  simp only [not_forall, not_not, exists_prop]

/-- The names in the table are those that were set, in lower case. -/
theorem mem_keys_headers : name ∈ ((bare status body).withHeaders calls).headers.map Prod.fst ↔
    ∃ call ∈ calls, lower call.1 = name := by
  rw [← not_iff_not, ← Ordered.find?_eq_none, find?_headers, Ordered.last?_eq_none,
    List.forall_mem_map]
  simp only [not_exists, not_and, ne_eq]

theorem octets_headers :
    (((bare status body).withHeaders calls).headers.map fun entry =>
      Text.Utf8.encode entry.1).Pairwise (· < ·) := by
  refine List.pairwise_map.2 (ascending_headers.imp ?_)
  intro a b hbefore
  exact Text.Utf8.encode_lt_encode_iff.2 (of_decide_eq_true hbefore)

/-- An entry of the table is found under its name. -/
theorem header?_of_mem {value : String}
    (h : (name, value) ∈ ((bare status body).withHeaders calls).headers) :
    ((bare status body).withHeaders calls).header? name = some value := by
  obtain ⟨call, -, rfl⟩ := mem_keys_headers.1 (List.mem_map_of_mem (f := Prod.fst) h)
  rw [header?, Text.lower_lower]
  exact (ascending_headers.mem_iff_find? strict_textBefore).1 h

/-- Headers are looked up without regard to the case of ASCII letters, and of several values for
one name the last one counts.  The table holds one entry for each name in lower case, in the order
of their bytes.  So the check that a header is present passes when a header of that name was set,
however it was spelt. -/
theorem header_lookup (status : Nat) (body : List UInt8) (calls : List (String × String)) :
    let r := (bare status body).withHeaders calls
    (∀ name value, r.header? name = some value ↔
      ∃ front called back, calls = front ++ (called, value) :: back ∧ Alike called name ∧
        ∀ call ∈ back, ¬ Alike call.1 name) ∧
    (∀ name, r.header? name = none ↔ ∀ call ∈ calls, ¬ Alike call.1 name) ∧
    (r.headers.map fun entry => Text.Utf8.encode entry.1).Pairwise (· < ·) ∧
    (∀ name, name ∈ r.headers.map Prod.fst ↔ ∃ call ∈ calls, lower call.1 = name) ∧
    (∀ name value, (name, value) ∈ r.headers → r.header? name = some value) ∧
    ∀ (description? : Option String) (header : String), ∃ check,
      Config.CheckEntry.resolve ⟨description?, none, none, some header⟩ = .ok check ∧
        (check.evaluate r = .passed ↔ ∃ call ∈ calls, Alike call.1 header) := by
  intro r
  refine ⟨fun name value => header?_eq_some, fun name => header?_eq_none, octets_headers,
    fun name => mem_keys_headers, fun name value => header?_of_mem, ?_⟩
  intro description? header
  let entry : Config.CheckEntry := ⟨description?, none, none, some header⟩
  refine ⟨⟨entry.label, fun response => .decided (entry.holds response)⟩, entry.resolve_eq, ?_⟩
  have hholds : entry.holds r = (r.header? header).isSome := Bool.true_and _
  rw [Check.passes_iff, Verdict.decided.injEq, hholds]
  exact isSome_header?

/-- A header that is set twice in two spellings, and one whose name is not all ASCII. -/
theorem header_lookup_respelt :
    let r := (bare 200 []).withHeaders
      [("Content-Type", "text/html"), ("X-É", "1"), ("CONTENT-type", "application/json")]
    r.header? "content-TYPE" = some "application/json" ∧ r.header? "x-é" = none ∧
      r.header? "x-É" = some "1" ∧ r.headers.map Prod.fst = ["content-type", "x-É"] ∧
      ∃ check, Config.CheckEntry.resolve ⟨none, none, none, some "CONTENT-TYPE"⟩ = .ok check ∧
        check.evaluate r = .passed := by
  intro r
  obtain ⟨hfound, habsent, -, -, -, hcheck⟩ := header_lookup 200 []
    [("Content-Type", "text/html"), ("X-É", "1"), ("CONTENT-type", "application/json")]
  refine ⟨?_, ?_, ?_, by decide, ?_⟩
  · exact (hfound _ _).2 ⟨[("Content-Type", "text/html"), ("X-É", "1")], "CONTENT-type", [], rfl,
      by decide, by decide⟩
  · exact (habsent _).2 (by decide)
  · exact (hfound _ _).2 ⟨[("Content-Type", "text/html")], "X-É",
      [("CONTENT-type", "application/json")], rfl, by decide, by decide⟩
  · obtain ⟨check, hresolved, hpasses⟩ := hcheck none "CONTENT-TYPE"
    exact ⟨check, hresolved, hpasses.2 ⟨_, List.mem_cons_self, by decide⟩⟩

end Response
end Http
end LoadRamp
