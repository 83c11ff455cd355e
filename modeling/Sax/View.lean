import Sax.Tracking

/-!
Logging a view, `view.view`: a handler writes what the argument `t` carries, and the request ends in
a redirect to a pixel.
-/

namespace Sax.View

open Sax.LuaVal Sax.Loop Sax.Runtime Sax.Const Sax.Creative Sax.ClickSign Sax.Tracking

def VIEW_TYPE_SINA : Str := lit "3"
def VIEW_TYPE_VIDEO : Str := lit "4"
def VIEW_TYPE_VIDEO_END : Str := lit "5"
def VIEW_TYPE_NONSTD : Str := lit "nonstd"
def VIEW_TYPE_NETWORK : Str := lit "network"
def VIEW_TYPE_SAXMOB : Str := lit "saxmob"

def LOG_SEPARATOR_DSP_VIEW : Str := lit "$DSP_VIEW_LOG$"
def LOG_SEPARATOR_SINA_VIEW : Str := lit "$SINA_VIEW_LOG$"
def LOG_SEPARATOR_VIDEO_VIEW : Str := lit "$VIDEO_VIEW_LOG$"
def LOG_SEPARATOR_VIDEO_END_VIEW : Str := lit "$VIDEO_END_LOG$"
def LOG_SEPARATOR_NONSTD_VIEW : Str := lit "$NONSTD_VIEW_LOG$"
def LOG_SEPARATOR_BLOG_VIEW : Str := lit "$BLOG_VIEW_LOG$"
def LOG_SEPARATOR_NETWORK_VIEW : Str := lit "$NETWORK_VIEW_LOG$"
def LOG_SEPARATOR_SAXMOB_VIEW : Str := lit "$SAXMOB_DSP_VIEW_LOG$"

/-- What `parser.lua` reads of a request. -/
structure Request where
  args : Str
  cookie_sinaglobal : Option Str
  cookie_ustat : Option Str

/-- The lines that are logged, and where the request is redirected to. -/
structure Out where
  log : List Str
  redirect : Option Str

section source

variable (req : Request)

/-- `ngx.var.arg_name or ""` -/
def getArg (name : String) : Str := (arg (lit name) req.args).getD []

def getViewType : Str := getArg req "type"
def getViewT : Str := getArg req "t"
def getBlogArticleId : Str := getArg req "blogarticleid"
def getBlogUserId : Str := getArg req "bloguserid"

def getCookie : Str :=
  let cookie := req.cookie_sinaglobal.getD []
  if cookie = [] then req.cookie_ustat.getD [] else cookie

def logT (logSeparator t : Str) : Str := logSeparator ++ t ++ logSeparator

def handleBlogView (t articleId userId : Str) : Lua (List Str) :=
  let articleId := orDash articleId
  let userId := orDash userId
  let t_args := split 9 t
  match t_args[0]?, t_args[5]? with
  | some timestamp, some t_uuid =>
    let blog_t := timestamp ++ tab ++ t_uuid ++ tab ++ userId ++ tab ++ articleId
    .ok [logT LOG_SEPARATOR_BLOG_VIEW blog_t]
  | _, _ => .error .badConcat

def handleSinaView : Lua (List Str) := do
  let t := decodeLogStr (getViewT req)
  let articleId := getBlogArticleId req
  let userId := getBlogUserId req
  let line := logT LOG_SEPARATOR_SINA_VIEW t
  if articleId ≠ [] ∨ userId ≠ [] then return line :: (← handleBlogView t articleId userId)
  else return [line]

/-- The handlers that log `t` under a separator of their own. -/
def handleView (logSeparator : Str) : Lua (List Str) :=
  .ok [logT logSeparator (decodeLogStr (getViewT req))]

def handleDspView : Lua (List Str) := handleView req LOG_SEPARATOR_DSP_VIEW
def handleVideoView : Lua (List Str) := handleView req LOG_SEPARATOR_VIDEO_VIEW
def handleVideoEndView : Lua (List Str) := handleView req LOG_SEPARATOR_VIDEO_END_VIEW
def handleNetworkView : Lua (List Str) := handleView req LOG_SEPARATOR_NETWORK_VIEW
def handleSaxmobView : Lua (List Str) := handleView req LOG_SEPARATOR_SAXMOB_VIEW

def handleNonStdView : Lua (List Str) :=
  let t := decodeLogStr (getViewT req)
  .ok [logT LOG_SEPARATOR_NONSTD_VIEW (t ++ tab ++ orDash (getCookie req))]

def pixel : Str := lit "http://d00.sina.com.cn/a.gif"

/-- The branches of `view`. -/
def handle : Lua (List Str) :=
  let viewType := getViewType req
  if viewType = VIEW_TYPE_DSP then handleDspView req
  else if viewType = VIEW_TYPE_SINA then handleSinaView req
  else if viewType = VIEW_TYPE_VIDEO then handleVideoView req
  else if viewType = VIEW_TYPE_VIDEO_END then handleVideoEndView req
  else if viewType = VIEW_TYPE_NONSTD then handleNonStdView req
  else if viewType = VIEW_TYPE_NETWORK then handleNetworkView req
  else if viewType = VIEW_TYPE_SAXMOB then handleSaxmobView req
  else .ok [lit "view type not support type=" ++ viewType]

def view : Lua Out := do
  let log ← handle req
  return ⟨log, if getViewType req ≠ VIEW_TYPE_SAXMOB then some pixel else none⟩

end source

/-- The request goes through, and unless its type is `saxmob` it ends in the redirect. -/
def Total (req : Request) : Prop :=
  ∃ out, view req = .ok out ∧ (getViewType req ≠ VIEW_TYPE_SAXMOB → out.redirect = some pixel)

/-! ### When a view goes through -/

section total

variable {req : Request}

/-- A text has one part more than separators. -/
lemma length_split (delim : UInt8) (s : Str) : (split delim s).length = s.count delim + 1 := by
  unfold split
  induction s with
  | nil => simp
  | cons c s ih =>
    obtain ⟨first, rest, hs⟩ := List.exists_cons_of_ne_nil (List.splitOn_ne_nil delim s)
    rw [List.splitOn_cons_eq_if_modifyHead, List.count_cons]
    by_cases hc : c = delim
    · simp [hc, ih]
    · rw [hs] at ih
      simp [hc, hs, ← ih]

lemma handleBlogView_isOk (t articleId userId : Str) :
    (∃ log, handleBlogView t articleId userId = .ok log) ↔ 5 ≤ t.count 9 := by
  have hlength := length_split 9 t
  unfold handleBlogView
  simp only
  cases hsixth : (split 9 t)[5]? with
  | none =>
    rw [List.getElem?_eq_none_iff] at hsixth
    refine iff_of_false ?_ (by omega)
    rintro ⟨log, h⟩
    cases hfirst : (split 9 t)[0]? with
    | none => rw [hfirst] at h; cases h
    | some timestamp => rw [hfirst] at h; cases h
  | some t_uuid =>
    obtain ⟨hlt, -⟩ := List.getElem?_eq_some_iff.mp hsixth
    refine iff_of_true ?_ (by omega)
    rw [List.getElem?_eq_getElem (by omega)]
    exact ⟨_, rfl⟩

lemma handleSinaView_isOk : (∃ log, handleSinaView req = .ok log) ↔
    (getBlogArticleId req ≠ [] ∨ getBlogUserId req ≠ [] →
      5 ≤ (decodeLogStr (getViewT req)).count 9) := by
  unfold handleSinaView
  by_cases hblog : getBlogArticleId req ≠ [] ∨ getBlogUserId req ≠ []
  · have hblogView := handleBlogView_isOk (decodeLogStr (getViewT req)) (getBlogArticleId req)
      (getBlogUserId req)
    simp only [if_pos hblog, bind_isOk, pure_ok, exists_eq', and_true, hblogView]
    exact ⟨fun h _ => h, fun h => h hblog⟩
  · simp only [if_neg hblog]
    exact iff_of_true ⟨_, rfl⟩ fun h => absurd h hblog

/-- Of the handlers only that of type `3` can raise. -/
lemma handle_isOk : (∃ log, handle req = .ok log) ↔
    (getViewType req = VIEW_TYPE_SINA → getBlogArticleId req ≠ [] ∨ getBlogUserId req ≠ [] →
      5 ≤ (decodeLogStr (getViewT req)).count 9) := by
  unfold handle
  by_cases hsina : getViewType req = VIEW_TYPE_SINA
  · have hne : VIEW_TYPE_SINA ≠ VIEW_TYPE_DSP := by decide
    simp only [hsina, if_neg hne, if_true, true_implies]
    exact handleSinaView_isOk
  · refine iff_of_true ?_ fun h => absurd h hsina
    simp only [if_neg hsina]
    split_ifs <;> exact ⟨_, rfl⟩

/-- **When a view goes through**: it is not one of type `3` with a blog whose payload has fewer than
six fields. -/
theorem total_iff (req : Request) : Total req ↔
    (getViewType req = VIEW_TYPE_SINA → getBlogArticleId req ≠ [] ∨ getBlogUserId req ≠ [] →
      5 ≤ (decodeLogStr (getViewT req)).count 9) := by
  rw [← handle_isOk]
  constructor
  · rintro ⟨out, hview, -⟩
    obtain ⟨log, hlog, -⟩ := bind_ok.mp hview
    exact ⟨log, hlog⟩
  · rintro ⟨log, hlog⟩
    have hview : view req =
        .ok ⟨log, if getViewType req ≠ VIEW_TYPE_SAXMOB then some pixel else none⟩ := by
      rw [view, hlog]
      rfl
    exact ⟨_, hview, fun hne => if_pos hne⟩

/-- A payload of one field for a blog: `t_args[6]` is `nil`. -/
theorem short_blog_view_raises :
    view ⟨lit "type=3&t=YQ==&blogArticleId=1", none, none⟩ = .error .badConcat ∧
      ¬ Total ⟨lit "type=3&t=YQ==&blogArticleId=1", none, none⟩ := by
  have hraises : view ⟨lit "type=3&t=YQ==&blogArticleId=1", none, none⟩ = .error .badConcat := rfl
  refine ⟨hraises, ?_⟩
  rintro ⟨out, hout, -⟩
  rw [hraises] at hout
  cases hout

end total

end Sax.View
