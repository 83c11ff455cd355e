import Sax.LuaVal
import Sax.Loop
import Sax.SecondPrice
import Sax.Atomic
import Sax.Ledger
import Sax.Runtime
import Sax.Const
import Sax.Store
import Sax.Auction
import Sax.Extract
import Sax.BidRsp
import Sax.MobileRtb
import Sax.VideoRtb
import Sax.SaxmobRtb
import Sax.Clearing
import Sax.Approval
import Sax.Creative
import Sax.Shape
import Sax.WebRtb
import Sax.Offered
import Sax.Isolation
import Sax.Room
import Sax.SinaQuery
import Sax.Shdict
import Sax.Qps
import Sax.Admission
import Sax.QpsRound
import Sax.Impress
import Sax.Capacity
import Sax.OfferedOnce
import Sax.ObjectInfo
import Sax.StoreSync
import Sax.WorkerSync
import Sax.Targeting
import Sax.Uri
import Sax.Notify
import Sax.Center
import Sax.Tables
import Sax.InUse
import Sax.Upsert
import Sax.Halfway
import Sax.Base64
import Sax.Replace
import Sax.Cipher
import Sax.WinPrice
import Sax.ClickSign
import Sax.InetUrl
import Sax.BidReq
import Sax.Launch
import Sax.PublisherRules
import Sax.Successor
import Sax.CHash
import Sax.Competition
import Sax.Confirm
import Sax.Keyspace
import Sax.Reload
import Sax.Tally
import Sax.RequestCount
import Sax.Getters
import Sax.Decimal
import Sax.Billing
import Sax.Interleave
import Sax.Records
import Sax.Caching
import Sax.Versions
import Sax.Realloc
import Sax.Ring
import Sax.Walk
import Sax.Bottom
import Sax.Batch
import Sax.Report
import Sax.Columns
import Sax.ObjectCheck
import Sax.Weighted
import Sax.Rotation
import Sax.Race
import Sax.Schema
import Sax.ResponseCheck
import Sax.SqlText
import Sax.IdQuery
import Sax.FastPath
import Sax.Vast
import Sax.RedirectChain
import Sax.Tracking
import Sax.Slots
import Sax.View
import Sax.TextLines
import Sax.ExpressLog
import Sax.LuaPattern
import Sax.Split
import Sax.Placement
import Sax.Served
import Sax.Mobile
import Sax.Video
import Sax.SqlStatement
import Sax.QueryText
import Sax.SaxmobSync
import Sax.SaxmobImpress
import Sax.TabText
import Sax.SspLog
import Sax.BidLog
