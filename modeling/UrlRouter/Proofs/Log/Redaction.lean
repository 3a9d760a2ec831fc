/-
What redaction hides.

A value is sensitive if its key holds one of the patterns, in any case. Redaction goes into mappings, however deep they
lie in one another, and puts one text in place of every sensitive value. It does not go into lists: a mapping that is
an item of a list is written as it stands, with all it holds.

Results:
- `redact_eq_iff`: what two mappings may differ in if redaction is to make them equal.
- `sensitive_values_hidden`: lines of records that differ in sensitive values only, none of them inside a list.
- `listed_value_shown`: a sensitive value that the line shows.
-/
import Mathlib.Tactic
import UrlRouter.Log.Record

namespace UrlRouter

namespace Log

/-! ## Equal but for sensitive values -/

mutual

/-- Two values are equal but for sensitive values in the mappings that they hold. Mappings inside lists are compared in
the same way if lists are entered, and must be equal otherwise. -/
inductive Alike (patterns : List String) (entersLists : Bool) : Json → Json → Prop
  | same (value : Json) : Alike patterns entersLists value value
  | array {items others : List Json} (henters : entersLists = true)
      (h : AlikeItems patterns entersLists items others) :
      Alike patterns entersLists (.array items) (.array others)
  | object {fields others : Mapping Json} (h : AlikeFields patterns entersLists fields others) :
      Alike patterns entersLists (.object fields) (.object others)

inductive AlikeItems (patterns : List String) (entersLists : Bool) : List Json → List Json → Prop
  | nil : AlikeItems patterns entersLists [] []
  | cons {item other : Json} {items others : List Json} (h : Alike patterns entersLists item other)
      (hrest : AlikeItems patterns entersLists items others) :
      AlikeItems patterns entersLists (item :: items) (other :: others)

/-- The keys are the same, and the values are alike where their key is not sensitive. -/
inductive AlikeFields (patterns : List String) (entersLists : Bool) : Mapping Json → Mapping Json → Prop
  | nil : AlikeFields patterns entersLists [] []
  | sensitive {key : String} (value other : Json) {fields others : Mapping Json}
      (hkey : isSensitive patterns key = true) (hrest : AlikeFields patterns entersLists fields others) :
      AlikeFields patterns entersLists ((key, value) :: fields) ((key, other) :: others)
  | plain (key : String) {value other : Json} {fields others : Mapping Json}
      (h : Alike patterns entersLists value other) (hrest : AlikeFields patterns entersLists fields others) :
      AlikeFields patterns entersLists ((key, value) :: fields) ((key, other) :: others)

end

/-! ## What redaction makes equal -/

variable {patterns : List String}

/-- Only mappings are changed, and stay mappings. -/
theorem redactValue_eq_self {value : Json} (h : ∀ fields, value ≠ .object fields) :
    redactValue patterns value = value := by
  cases value with
  | object fields => exact absurd rfl (h fields)
  | _ => rfl

/-- Where redaction goes into no mapping, it makes nothing equal. -/
theorem alike_of_ne_object {value other : Json} (h : ∀ fields, value ≠ .object fields) :
    redactValue patterns value = redactValue patterns other ↔ Alike patterns false value other := by
  rw [redactValue_eq_self h]
  constructor
  · intro hsame
    cases other with
    | object others => exact absurd hsame (h (redact patterns others))
    | _ =>
      obtain rfl := hsame
      exact .same _
  · intro halike
    cases halike with
    | same => exact (redactValue_eq_self h).symm
    | array henters => cases henters
    | object => exact absurd rfl (h _)

mutual

theorem redactValue_eq_iff (value other : Json) :
    redactValue patterns value = redactValue patterns other ↔ Alike patterns false value other := by
  match value with
  | .object fields =>
    constructor
    · intro hsame
      cases other with
      | object others => exact .object ((redact_eq_iff fields others).1 (Json.object.inj hsame))
      | _ => cases hsame
    · intro halike
      cases halike with
      | same => rfl
      | object h => exact congrArg Json.object ((redact_eq_iff fields _).2 h)
  | .null | .bool _ | .int _ | .float _ | .string _ | .array _ => exact alike_of_ne_object (by simp)

/-- **Redaction makes two mappings equal** exactly if they differ in sensitive values only, none of them inside a
list. -/
theorem redact_eq_iff (fields others : Mapping Json) :
    redact patterns fields = redact patterns others ↔ AlikeFields patterns false fields others := by
  match fields, others with
  | [], [] => exact ⟨fun _ => .nil, fun _ => rfl⟩
  | [], _ :: _ => exact ⟨fun hsame => (by cases hsame), fun halike => (by cases halike)⟩
  | _ :: _, [] => exact ⟨fun hsame => (by cases hsame), fun halike => (by cases halike)⟩
  | (key, value) :: fields, (otherKey, other) :: others =>
    rw [redact, redact, List.cons.injEq, Prod.mk.injEq, redact_eq_iff fields others]
    constructor
    · rintro ⟨⟨rfl, hvalue⟩, hrest⟩
      by_cases hkey : isSensitive patterns key = true
      · exact .sensitive value other hkey hrest
      · rw [if_neg hkey, if_neg hkey, redactValue_eq_iff value other] at hvalue
        exact .plain key hvalue hrest
    · intro halike
      cases halike with
      | sensitive _ _ hkey hrest => exact ⟨⟨rfl, by rw [if_pos hkey, if_pos hkey]⟩, hrest⟩
      | plain _ h hrest => exact ⟨⟨rfl, by rw [(redactValue_eq_iff value other).2 h]⟩, hrest⟩

end

end Log

/-! ## Lines -/

/-- **Two records are equal but for sensitive values** in their further data, which are the fields of the bundle and the
single fields. -/
structure LogRecord.AlikeBut (patterns : List String) (entersLists : Bool) (record other : LogRecord) : Prop where
  logger : record.logger = other.logger
  level : record.level = other.level
  template : record.template = other.template
  arguments : record.arguments = other.arguments
  exception : record.exception = other.exception
  correlation : record.correlation = other.correlation
  bundle : Log.AlikeFields patterns entersLists record.bundle other.bundle
  singles : Log.AlikeFields patterns entersLists record.singles other.singles

/-- Records that differ in sensitive values only, none of them inside a list, give the same object. -/
theorem LogRecord.AlikeBut.toJson_eq {patterns : List String} {record other : LogRecord}
    (h : record.AlikeBut patterns false other) (now : String) :
    record.toJson patterns now = other.toJson patterns now := by
  have hmessage : record.message = other.message := by rw [message, message, h.template, h.arguments]
  have hlevel : record.levelName = other.levelName := by rw [levelName, levelName, h.level]
  simp only [toJson, hmessage, hlevel, h.logger, h.correlation, h.exception, (Log.redact_eq_iff _ _).2 h.bundle,
    (Log.redact_eq_iff _ _).2 h.singles]

/-- **Sensitive values are hidden at every depth of mappings**, and nothing else is.
- Records that differ only in values under sensitive keys, at any depth of mappings in their further data but not inside
  a list, give the same line.
- Mappings that are redacted to the same differ in nothing else. -/
theorem sensitive_values_hidden (patterns : List String) :
    (∀ (record other : LogRecord) (now : String), record.AlikeBut patterns false other →
      (LogFormatter.structured patterns).format now record = (LogFormatter.structured patterns).format now other) ∧
    ∀ fields others : Mapping Json,
      Log.redact patterns fields = Log.redact patterns others ↔ Log.AlikeFields patterns false fields others := by
  refine ⟨fun record other now h => ?_, Log.redact_eq_iff⟩
  rw [LogFormatter.format, LogFormatter.format, h.toJson_eq now]

/-- a record of a request with its headers in the bundle and a password among the single fields -/
def loginRecord (token password : String) : LogRecord where
  template := "login"
  fields := [
    (Log.bundleField, .object [("headers", .object [("Authorization", .string token), ("Accept", .string "*/*")])]),
    ("User_Password", .string password)]

/-- Two logins differ in what they keep secret only, and leave the same line. -/
theorem loginRecords_same :
    (loginRecord "a" "b").AlikeBut ["authorization", "password"] false (loginRecord "c" "d") ∧
    (LogFormatter.structured ["authorization", "password"]).format "now" (loginRecord "a" "b") =
      (LogFormatter.structured ["authorization", "password"]).format "now" (loginRecord "c" "d") := by
  have hkey : Log.isSensitive ["authorization", "password"] "Authorization" = true := by decide +kernel
  have hsingle : Log.isSensitive ["authorization", "password"] "User_Password" = true := by decide +kernel
  have halike : (loginRecord "a" "b").AlikeBut ["authorization", "password"] false (loginRecord "c" "d") := by
    refine ⟨rfl, rfl, rfl, rfl, rfl, rfl, ?_, ?_⟩
    · exact .plain "headers" (.object (.sensitive _ _ hkey (.plain "Accept" (.same _) .nil))) .nil
    · exact .sensitive _ _ hsingle .nil
  exact ⟨halike, (sensitive_values_hidden ["authorization", "password"]).1 _ _ "now" halike⟩

/-- a record with a list of users among its single fields -/
def usersRecord (password : String) : LogRecord where
  template := "users"
  fields := [("users", .array [.object [("password", .string password)]])]

/-- **A sensitive value inside a list is shown.** Two records are equal but for a value under a sensitive key, and the
lines tell which is which. -/
theorem listed_value_shown :
    (usersRecord "a").AlikeBut ["password"] true (usersRecord "b") ∧
    (LogFormatter.structured ["password"]).format "now" (usersRecord "a") ≠
      (LogFormatter.structured ["password"]).format "now" (usersRecord "b") := by
  have hkey : Log.isSensitive ["password"] "password" = true := by decide +kernel
  refine ⟨⟨rfl, rfl, rfl, rfl, rfl, rfl, .nil, ?_⟩, by decide +kernel⟩
  exact .plain "users" (.array rfl (.cons (.object (.sensitive _ _ hkey .nil)) .nil)) .nil

end UrlRouter
