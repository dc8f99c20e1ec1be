import Bosphor.Lib.Text
import Bosphor.Relayer.Kpi

/-!
# App ids

The optional id of the application that a request comes from, a short slug. A
client checks the id it is configured with (`validateAppId`), and the relayer
checks the header again: an id that the one lets pass the other records, in
lower case (`parseAppId_validated`).
-/

namespace Bosphor.Relayer

open Kpi (APP_ID_PATTERN)

inductive AppIdResult where
  | ok (appId : Option String)
  | malformed (message : String)
  deriving DecidableEq

def appIdMessage : String :=
  "invalid X-Bosphor-App header: expected a slug matching /^[a-z0-9][a-z0-9\\-_.]\x7b0,63\x7d$/i"

/-- `parseAppId(raw)`, of the values of the header in the order in which they came. -/
def parseAppId (raw : Option (List String)) : AppIdResult :=
  match raw with
  | none => .ok none
  | some values =>
    let value := String.ofList (Text.trim ((values.head?.map String.toList).getD []))
    if value = "" then .ok none
    else if APP_ID_PATTERN value then .ok (some value.toLower)
    else .malformed appIdMessage

/-- `validateAppId(appId)` of the SDK: the id unchanged, or an error. -/
def validateAppId (appId : Option String) : Except String (Option String) :=
  match appId with
  | none => .ok none
  | some id =>
    if APP_ID_PATTERN id then .ok (some id)
    else .error ("invalid appId \"" ++ id ++
      "\": use a short slug (letters, digits, \"-\", \"_\", \".\"; max 64 chars)")

theorem validateAppId_ok {given appId : Option String} (h : validateAppId given = .ok appId) : appId = given := by
  unfold validateAppId at h
  split at h
  · exact (Except.ok.inj h).symm
  · split at h
    · exact (Except.ok.inj h).symm
    · cases h

/-- A character of a slug is no white space. -/
theorem not_space_of_slug {c : Char} (h : (c.isAlphanum || "-_.".toList.contains c) = true) :
    Text.isSpace c = false := by
  have hrange : 45 ≤ c.toNat ∧ c.toNat ≤ 122 := by
    change (decide (c.val ≥ 'A'.val ∧ c.val ≤ 'Z'.val) || (decide (c.val ≥ 'a'.val) && decide (c.val ≤ 'z'.val)) ||
      (decide (c.val ≥ '0'.val) && decide (c.val ≤ '9'.val)) || "-_.".toList.contains c) = true at h
    simp only [Bool.or_eq_true, Bool.and_eq_true, decide_eq_true_eq, ge_iff_le, UInt32.le_iff_toNat_le,
      List.contains_iff_mem] at h
    have hcode : c.val.toNat = c.toNat := rfl
    rw [hcode] at h
    obtain ((⟨hlow, hhigh⟩ | ⟨hlow, hhigh⟩) | ⟨hlow, hhigh⟩) | hmem := h
    · exact ⟨le_trans (by decide) hlow, le_trans hhigh (by decide)⟩
    · exact ⟨le_trans (by decide) hlow, le_trans hhigh (by decide)⟩
    · exact ⟨le_trans (by decide) hlow, le_trans hhigh (by decide)⟩
    · have hall : "-_.".toList.all (fun c => decide (45 ≤ c.toNat) && decide (c.toNat ≤ 122)) = true := by decide
      simpa using List.all_eq_true.mp hall c hmem
  simp [Text.isSpace]
  omega

/-- A slug has no white space. -/
theorem slug_no_space {id : String} (h : APP_ID_PATTERN id = true) : ∀ c ∈ id.toList, Text.isSpace c = false := by
  unfold APP_ID_PATTERN at h
  split at h
  · cases h
  · rename_i c rest hid
    simp only [Bool.and_eq_true, List.all_eq_true] at h
    obtain ⟨⟨hfirst, -⟩, hrest⟩ := h
    rw [hid]
    intro d hd
    obtain rfl | hd := List.mem_cons.mp hd
    · exact not_space_of_slug (by rw [hfirst, Bool.true_or])
    · exact not_space_of_slug (hrest d hd)

theorem trim_slug {id : String} (h : APP_ID_PATTERN id = true) : Text.trim id.toList = id.toList :=
  Text.trim_eq_self (fun c hc => slug_no_space h c (List.mem_of_mem_head? hc))
    fun c hc => slug_no_space h c (List.mem_of_mem_getLast? hc)

theorem slug_ne_empty {id : String} (h : APP_ID_PATTERN id = true) : id ≠ "" := by
  rintro rfl
  exact absurd h (by decide)

/-- What a client sends of the id that it was configured with is recorded in lower case. -/
theorem parseAppId_validated {id : String} {appId : Option String} (h : validateAppId (some id) = .ok appId) :
    appId = some id ∧ parseAppId (some [id]) = .ok (some id.toLower) := by
  simp only [validateAppId] at h
  split at h
  case isFalse => cases h
  case isTrue hslug =>
    refine ⟨(Except.ok.inj h).symm, ?_⟩
    unfold parseAppId
    simp only [List.head?_cons, Option.map_some, Option.getD_some, trim_slug hslug, String.ofList_toList,
      if_neg (slug_ne_empty hslug), if_pos hslug]

end Bosphor.Relayer
