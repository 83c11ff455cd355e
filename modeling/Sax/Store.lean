import Sax.Const
import Sax.Runtime

/-!
The objects an exchange reads from the shared dictionary of its worker.

A record carries the attributes of its object kind, typed as the `_attr_mem` table of the
kind declares them. A getter asked for an id the dictionary does not hold returns `nil`, and so
does one asked for a key that is longer than a dictionary takes.
-/

namespace Sax.Store

open Sax.LuaVal Sax.Const Sax.Runtime

/-- One entry of `networkinfo`: network id, a field nobody reads, the place id, the weight. -/
structure NetworkAd where
  id : Str
  field2 : Str
  pid : Str
  weight : ℚ

/-- `adunit._attr_mem` -/
structure AdUnit where
  wdht : Str
  location : Str
  adnum : ℤ
  publisher : ℤ
  status : ℤ
  adtype : List Str
  displaytype : Str
  nad : List Val
  networkinfo : List NetworkAd

/-- `publisher._attr_mem` -/
structure Publisher where
  resource : ℤ
  dspprice : ℚ
  status : ℤ

/-- `resource._attr_mem` -/
structure Resource where
  flag : ℤ
  dspwhitelist : List Str
  status : ℤ
  pdwhitelist : List Str

/-- `dsp._attr_mem` -/
structure Dsp where
  bidurl : Str
  notifyurl : Str
  encryptionkey : Str
  integritykey : Str
  status : ℤ
  signkey : Str

/-- `creative._attr_mem` -/
structure CreativeInfo where
  uniqueid : ℤ
  dspid : ℤ
  dspideaid : Str
  advertiserid : Str
  status : ℤ

/-- `advertiser._attr_mem` -/
structure AdvertiserInfo where
  uniqueid : ℤ
  dspid : ℤ
  advertiserid : Str
  status : ℤ
  type : Str

/-- `network._attr_mem` -/
structure Network where
  url : Str
  status : ℤ

/-- The objects of one worker's dictionary. Publishers and resources have numbers for ids,
the other kinds are asked for by string. -/
structure Dict where
  adunit : Str → Option AdUnit
  publisher : ℤ → Option Publisher
  resource : ℤ → Option Resource
  dsp : Str → Option Dsp
  creative : Str → Option CreativeInfo
  advertiser : Str → Option AdvertiserInfo
  network : Str → Option Network

/-- The dictionary of the listed objects. -/
def Dict.ofLists (adunit : List (String × AdUnit)) (publisher : List (ℤ × Publisher))
    (resource : List (ℤ × Resource)) (dsp : List (String × Dsp))
    (creative : List (String × CreativeInfo)) (advertiser : List (String × AdvertiserInfo)) :
    Dict where
  adunit id := (adunit.map fun e => (lit e.1, e.2)).lookup id
  publisher id := publisher.lookup id
  resource id := resource.lookup id
  dsp id := (dsp.map fun e => (lit e.1, e.2)).lookup id
  creative id := (creative.map fun e => (lit e.1, e.2)).lookup id
  advertiser id := (advertiser.map fun e => (lit e.1, e.2)).lookup id
  network _ := none

/-- The longest key of a shared dictionary, less the prefix letter of the object kind. -/
def maxKey : ℕ := 65534

/-- `object:getInfoSD(id)`, with what the dictionary answers for the key made of the id. -/
def getInfoSD {α : Type} (kind : Str → Option α) (id : Str) : Lua (Option α) := .ok (kind id)

/-- `object:getAttribute(id, index)` -/
def getAttribute {α β : Type} (kind : Str → Option α) (id : Str) (attr : α → β) :
    Lua (Option β) :=
  return (← getInfoSD kind id).map attr

/-- `object:isValid(id)` -/
def isValid {α : Type} (kind : Str → Option α) (id : Str) : Lua Bool :=
  return (← getInfoSD kind id).isSome

section getInfo

variable {α β : Type} (kind : Str → Option α) (id : Str) (attr : α → β)

@[simp] lemma getInfoSD_eq : getInfoSD kind id = .ok (kind id) := rfl

lemma getAttribute_eq : getAttribute kind id attr = .ok ((kind id).map attr) := rfl

lemma isValid_eq : isValid kind id = .ok (kind id).isSome := rfl

end getInfo

variable (d : Dict)

def Dict.HasUnit (u : Str) : Prop := (d.adunit u).isSome

/-! ### `publisherObj` and `resourceObj`

A getter called with `nil` for the id raises, since it glues the id to the prefix. -/

def getLowestPrice : Option ℤ → Lua (Option ℚ)
  | some p => .ok ((d.publisher p).map Publisher.dspprice)
  | none => .error .badConcat

def getResource : Option ℤ → Lua (Option ℤ)
  | some p => .ok ((d.publisher p).map Publisher.resource)
  | none => .error .badConcat

def getWhiteDspList : Option ℤ → Lua (Option (List Str))
  | some r => .ok ((d.resource r).map Resource.dspwhitelist)
  | none => .error .badConcat

def getPdWhiteList : Option ℤ → Lua (Option (List Str))
  | some r => .ok ((d.resource r).map Resource.pdwhitelist)
  | none => .error .badConcat

def getFlag : Option ℤ → Lua (Option ℤ)
  | some r => .ok ((d.resource r).map Resource.flag)
  | none => .error .badConcat

/-! ### `adUnitObj` -/

def getSize (u : Str) : Lua (Option Str) := getAttribute d.adunit u AdUnit.wdht
def getLocation (u : Str) : Lua (Option Str) := getAttribute d.adunit u AdUnit.location
def getAdNum (u : Str) : Lua (Option ℤ) := getAttribute d.adunit u AdUnit.adnum
def getPublisher (u : Str) : Lua (Option ℤ) := getAttribute d.adunit u AdUnit.publisher
def getAdTypeList (u : Str) : Lua (Option (List Str)) := getAttribute d.adunit u AdUnit.adtype
def getDisplayType (u : Str) : Lua (Option Str) := getAttribute d.adunit u AdUnit.displaytype
def getNadList (u : Str) : Lua (Option (List Val)) := getAttribute d.adunit u AdUnit.nad
def getNetworkList (u : Str) : Lua (Option (List NetworkAd)) :=
  getAttribute d.adunit u AdUnit.networkinfo

/-! ### `dspObj` -/

def getRTBUrl (dspId : Str) : Lua (Option Str) := getAttribute d.dsp dspId Dsp.bidurl
def getConfirmUrl (dspId : Str) : Lua (Option Str) := getAttribute d.dsp dspId Dsp.notifyurl
def getDspStatus (dspId : Str) : Lua (Option ℤ) := getAttribute d.dsp dspId Dsp.status
def getEncryptionKey (dspId : Str) : Lua (Option Str) :=
  getAttribute d.dsp dspId Dsp.encryptionkey
def getIntegrityKey (dspId : Str) : Lua (Option Str) :=
  getAttribute d.dsp dspId Dsp.integritykey

/-- `dsp:getSignKey` reads index 10, where `_attr_mem` puts the status; the sign key is at
index 11. -/
def getSignKey (dspId : Str) : Lua (Option ℤ) := getAttribute d.dsp dspId Dsp.status

/-! ### `creativeObj` and `advertiserObj`

The Sina DSP has no rows: its creatives and its one advertiser are constants. -/

def creativeIsValid (dspId creativeId : Str) : Lua Bool :=
  if dspId = SINA_DSP_ID then .ok true else isValid d.creative (dspId ++ creativeId)

def creativeGetStatus (dspId creativeId : Str) : Lua (Option ℤ) :=
  if dspId = SINA_DSP_ID then .ok (some SINA_DSP_CREATIVE_STATUS)
  else getAttribute d.creative (dspId ++ creativeId) CreativeInfo.status

def creativeGetAdvertiserId (dspId creativeId : Str) : Lua (Option Str) :=
  if dspId = SINA_DSP_ID then .ok (some SINA_DSP_ADVERTISER_ID)
  else getAttribute d.creative (dspId ++ creativeId) CreativeInfo.advertiserid

def creativeGetUniqueId (dspId creativeId : Str) : Lua (Option ℤ) :=
  if dspId = SINA_DSP_ID then .ok (some SINA_DSP_CREATIVE_UNIQUE_ID)
  else getAttribute d.creative (dspId ++ creativeId) CreativeInfo.uniqueid

/-- `dspId .. advertiserId`, which raises when the creative had no advertiser id. -/
def advertiserKey (dspId : Str) : Option Str → Lua Str
  | some a => .ok (dspId ++ a)
  | none => .error .badConcat

def advertiserIsValid (dspId : Str) (advertiserId : Option Str) : Lua Bool :=
  if dspId = SINA_DSP_ID then .ok true
  else do isValid d.advertiser (← advertiserKey dspId advertiserId)

def advertiserGetStatus (dspId : Str) (advertiserId : Option Str) : Lua (Option ℤ) :=
  if dspId = SINA_DSP_ID then .ok (some SINA_DSP_ADVERTISER_STATUS)
  else do getAttribute d.advertiser (← advertiserKey dspId advertiserId) AdvertiserInfo.status

def advertiserGetType (dspId : Str) (advertiserId : Option Str) : Lua (Option Str) :=
  if dspId = SINA_DSP_ID then .ok (some SINA_DSP_ADVERTISER_TYPE)
  else do getAttribute d.advertiser (← advertiserKey dspId advertiserId) AdvertiserInfo.type

end Sax.Store
