import Sax.LuaVal

/-!
The constants of `const.lua` that the modelled functions use.
-/

namespace Sax.Const

open Sax.LuaVal

def HTTP_OK : ℕ := 200
def HTTP_BAD_REQUEST : ℕ := 400

def OBJECT_STATUS_VALID : ℤ := 1
def OBJECT_STATUS_INVALID : ℤ := 0
def OBJECT_FLAG_SET : ℤ := 1

def SINA_DSP_ID : Str := lit "17"
def SINA_DSP_BID_ARG_HASHCODE : Str := lit "hashcode"
def SINA_DSP_BID_ARG_COOKIE : Str := lit "cookie"
def SINA_DSP_BID_ARG_VERSION : Str := lit "version"
def SINA_DSP_CLICK_ARG_P : Str := lit "p"
def SINA_DSP_CREATIVE_STATUS : ℤ := 1
def SINA_DSP_CREATIVE_UNIQUE_ID : ℤ := 1
def SINA_DSP_ADVERTISER_ID : Str := lit "1"
def SINA_DSP_ADVERTISER_STATUS : ℤ := 1
def SINA_DSP_ADVERTISER_TYPE : Str := lit "111"

def DSP_QPS_LIMIT_PREFIX : Str := lit "dsp:qps:limit:"
def DSP_QPS_COUNT_PREFIX : Str := lit "dsp:qps:count:"
def DSP_QPS_TOTAL_PREFIX : Str := lit "dsp:qps:total:"
def GET_DSP_QPS_TOTAL : Str := lit "gettoal"
def SET_DSP_QPS_LIMIT : Str := lit "setlimit"

def RTB_VERSION : Str := lit "1.0"
def RTB_EXTRA_PRICE : ℚ := 1
def RTB_MACRO_CLICK_UNESC : Str := lit "%%CLICK_URL_UNESC%%"
def RTB_MACRO_CLICK_ESC : Str := lit "%%CLICK_URL_ESC%%"
def RTB_MACRO_WIN_PRICE : Str := lit "%%WIN_PRICE%%"
def RTB_CLICK_URL : Str := lit "http://sax.sina.com.cn/click"
def RTB_CLICK_ARG_TYPE : Str := lit "type"
def RTB_CLICK_ARG_T : Str := lit "t"
def RTB_CLICK_ARG_TARGETING : Str := lit "targeting"
def RTB_CLICK_ARG_URL : Str := lit "url"
def RTB_CLICK_ARG_SIGN : Str := lit "sign"
def RTB_VIEW_URL : Str := lit "http://sax.sina.com.cn/view"
def RTB_VIEW_ARG_TYPE : Str := lit "type"
def RTB_VIEW_ARG_T : Str := lit "t"
def RTB_CM_FLAG : Str := lit "true"
def RTB_CM_URL : Str := lit "http://sax.sina.com.cn/cm"
def RTB_WAP_CM_URL : Str := lit "http://sax.sina.cn/cm"
def RTB_CM_ARG_NID : Str := lit "sina_nid"
def CLICK_TYPE_DSP : Str := lit "2"
def VIEW_TYPE_DSP : Str := lit "2"

def BAIDU_NETWORK_ID : Str := lit "6"
def ANMO_NETWORK_ID : Str := lit "7"

def DSP_ID_IPINYOU : Str := lit "1"

def PREFERRED_DEAL_TYPE : Str := lit "dsp_pd"

/-- `AUCTION_TYPE_PREFERRED_DEAL`, `AUCTION_TYPE_PRIVATE_AUCTION` and
`AUCTION_TYPE_OPEN_AUCTION`. -/
inductive AuctionType
  | preferredDeal
  | privateAuction
  | openAuction
  deriving DecidableEq

/-- The number of an auction type. -/
def AuctionType.code : AuctionType → ℚ
  | .preferredDeal => 501
  | .privateAuction => 502
  | .openAuction => 503

/-- `PC_PUBLISHER` and `WAP_PUBLISHER`. -/
inductive PublisherType
  | pc
  | wap
  deriving DecidableEq

end Sax.Const
