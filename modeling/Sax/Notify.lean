import Sax.StoreSync
import Sax.Uri

/-!
The ids of a notification on their way from the center to a worker.

`center.notifySax` joins them with commas into a form body, as they are; `sax.updateObjectInfo`
decodes the form argument and splits it at the commas.
-/

namespace Sax.Notify

open Sax.LuaVal Sax.Loop Sax.Runtime Sax.ObjectInfo Sax.StoreSync Sax.Uri

/-- The body `notifySax` sends. -/
def notifyBody (idList : List Str) : Str := lit "id=" ++ concat comma idList

/-- `NGX_HTTP_LUA_MAX_ARGS` -/
def max_args : ℕ := 100

/-- `client_max_body_size`, which is the size of the buffer for a body as well. -/
def client_max_body_size : ℕ := 8 * 2 ^ 20

/-- `parser.getSaxObjectId` on a body; nginx refuses a longer one. -/
def getSaxObjectId (body : Str) : Lua Arg :=
  if body.length ≤ client_max_body_size then
    .ok ((parse_args max_args body (lit "id")).getD (.value []))
  else .error (.error "Request Entity Too Large")

/-- The ids `sax.updateObjectInfo` works on. An argument that is no string cannot be split. -/
def objectIdList (body : Str) : Lua (List Str) := do
  match ← getSaxObjectId body with
  | .value objectId =>
    if objectId = [] then throw (.error "fail in get args")
    return split comma objectId
  | .flag | .list _ => throw .badArgument

lemma id_plain : Plain (lit "id") := by
  refine ⟨by decide, fun c hc => ?_⟩
  revert c
  decide +kernel

lemma notifyBody_eq (idList : List Str) :
    notifyBody idList = lit "id" ++ equals :: concat comma idList := rfl

/-- The argument is the list as it was joined. -/
lemma objectIdList_ok {body : Str} {idList : List Str} : objectIdList body = .ok idList ↔
    body.length ≤ client_max_body_size ∧ concat comma idList ≠ [] ∧
      (∀ id ∈ idList, comma ∉ id) ∧
        parse_args max_args body (lit "id") = some (.value (concat comma idList)) := by
  unfold objectIdList getSaxObjectId
  by_cases hlength : body.length ≤ client_max_body_size
  · rw [if_pos hlength, ok_bind]
    constructor
    · intro h
      cases harg : parse_args max_args body (lit "id") with
      | none =>
        rw [harg] at h
        cases h
      | some arg =>
        rw [harg] at h
        cases arg with
        | value objectId =>
          by_cases hempty : objectId = []
          · simp only [Option.getD_some, hempty, if_true] at h
            cases h
          · simp only [Option.getD_some, hempty, if_false] at h
            cases h
            rw [concat_split]
            exact ⟨hlength, hempty, fun id hid => notMem_of_mem_split hid, rfl⟩
        | flag => cases h
        | list l => cases h
    · rintro ⟨-, hne, hcomma, harg⟩
      have hidList : idList ≠ [] := by
        rintro rfl
        exact hne rfl
      simp only [harg, Option.getD_some, hne, if_false]
      rw [split_concat hcomma hidList]
      rfl
  · rw [if_neg hlength]
    constructor
    · intro h
      cases h
    · exact fun h => absurd h.1 hlength

lemma concat_eq_nil {idList : List Str} (hne : idList ≠ []) :
    concat comma idList = [] ↔ idList = [[]] := by
  constructor
  · intro h
    match idList, hne with
    | [id], _ => simpa [concat, List.intercalate] using h
    | id :: id' :: rest, _ => simp [concat, List.intercalate] at h
  · rintro rfl
    rfl

/-- A text that is joined with commas keeps its characters. -/
lemma forall_mem_concat {idList : List Str} {P : UInt8 → Prop} (hcomma : P comma) :
    (∀ c ∈ concat comma idList, P c) ↔ ∀ id ∈ idList, ∀ c ∈ id, P c := by
  constructor
  · exact fun h id hid c hc => h c (mem_concat_of_mem hid hc)
  · intro h c hc
    rcases mem_concat hc with rfl | ⟨id, hid, hc⟩
    · exact hcomma
    · exact h id hid c hc

/-- **The ids arrive as they were sent exactly when none of them has one of `,`, `&`, `%` and `+`
in it**, they are not the empty id alone, and the body is not too long. -/
theorem ids_arrive_iff {idList : List Str} (hne : idList ≠ []) :
    objectIdList (notifyBody idList) = .ok idList ↔
      (∀ id ∈ idList, ∀ c ∈ id, c ∉ lit ",&%+") ∧ idList ≠ [[]] ∧
        (notifyBody idList).length ≤ client_max_body_size := by
  have hmax : 0 < max_args := by decide
  rw [objectIdList_ok, Ne, concat_eq_nil hne, notifyBody_eq, parse_args_eq_value hmax id_plain,
    forall_mem_concat (by decide)]
  have hchars : (∀ id ∈ idList, ∀ c ∈ id, c ∉ lit ",&%+") ↔
      (∀ id ∈ idList, comma ∉ id) ∧ ∀ id ∈ idList, ∀ c ∈ id, c ∉ lit "&%+" := by
    have hlit : lit ",&%+" = comma :: lit "&%+" := by decide
    simp only [hlit, List.mem_cons, not_or]
    constructor
    · exact fun h => ⟨fun id hid hc => (h id hid _ hc).1 rfl, fun id hid c hc => (h id hid c hc).2⟩
    · rintro ⟨hcomma, hplain⟩ id hid c hc
      exact ⟨fun heq => hcomma id hid (heq ▸ hc), hplain id hid c hc⟩
  rw [hchars]
  tauto

/-- The condition is met by the ids of two ad units. -/
theorem ids_arrive_iff_sample : objectIdList (notifyBody [lit "a1", lit "a2"]) =
    .ok [lit "a1", lit "a2"] :=
  (ids_arrive_iff (by decide)).mpr (by decide +kernel)

/-- The creative `a+b` of DSP 2 is deleted, and the worker is told of an object `2a b`. -/
theorem deleted_id_changes : ∃ rows, writeDB (Ngx.ofTexts []) plainSql
      [[("id", .num 1), ("dspid", .num 2), ("dspideaid", .str (lit "a+b")),
        ("advertiserid", .str (lit "x")), ("status", .num 1)]]
      ⟨.creative, [⟨.num 1, []⟩], true⟩ = .ok (rows, [lit "2a+b"]) ∧
    objectIdList (notifyBody [lit "2a+b"]) = .ok [lit "2a b"] ∧
      objectIdList (notifyBody [lit "2a+b"]) ≠ .ok [lit "2a+b"] :=
  ⟨[], by decide +kernel, by decide +kernel, by decide +kernel⟩

end Sax.Notify
