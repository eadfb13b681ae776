import Sumidero.Text

namespace Sumidero.Server

open Text

/-! Safe-search enforcement: the search hosts rewritten to their provider's enforced
endpoint. -/

def SUPPORTED_PROVIDERS : List String := ["google", "youtube", "bing", "duckduckgo"]

/-- Google search TLDs (`www.google.<tld>`). -/
def GOOGLE_TLDS : List String :=
  ["ad", "ae", "al", "am", "as", "at", "az", "ba", "be", "bf", "bg", "bi", "bj", "bs", "bt",
   "by", "ca", "cat", "cd", "cf", "cg", "ch", "ci", "cl", "cm", "cn", "co", "co.ao", "co.bw",
   "co.ck", "co.cr", "co.id", "co.il", "co.in", "co.jp", "co.ke", "co.kr", "co.ls", "co.ma",
   "co.mz", "co.nz", "co.th", "co.tz", "co.ug", "co.uk", "co.uz", "co.ve", "co.vi", "co.za",
   "co.zm", "co.zw", "com", "com.af", "com.ag", "com.ai", "com.ar", "com.au", "com.bd", "com.bh",
   "com.bn", "com.bo", "com.br", "com.bz", "com.co", "com.cu", "com.cy", "com.do", "com.ec",
   "com.eg", "com.et", "com.fj", "com.gh", "com.gi", "com.gt", "com.hk", "com.jm", "com.kh",
   "com.kw", "com.lb", "com.ly", "com.mm", "com.mt", "com.mx", "com.my", "com.na", "com.nf",
   "com.ng", "com.ni", "com.np", "com.om", "com.pa", "com.pe", "com.pg", "com.ph", "com.pk",
   "com.pr", "com.py", "com.qa", "com.sa", "com.sb", "com.sg", "com.sl", "com.sv", "com.tj",
   "com.tr", "com.tw", "com.ua", "com.uy", "com.vc", "com.vn", "cv", "cz", "de", "dj", "dk",
   "dm", "dz", "ee", "es", "fi", "fm", "fr", "ga", "ge", "gg", "gl", "gm", "gp", "gr", "gy",
   "hn", "hr", "ht", "hu", "ie", "im", "iq", "is", "it", "je", "jo", "kg", "ki", "kz", "la",
   "li", "lk", "lt", "lu", "lv", "md", "me", "mg", "mk", "ml", "mn", "ms", "mu", "mv", "mw",
   "ne", "nl", "no", "nr", "nu", "pl", "pn", "ps", "pt", "ro", "rs", "ru", "rw", "sc", "se",
   "sh", "si", "sk", "sm", "sn", "so", "sr", "st", "td", "tg", "tk", "tl", "tm", "tn", "to",
   "tt", "vg", "vu", "ws"]

def YOUTUBE_HOSTS : List String :=
  ["m.youtube.com", "www.youtube-nocookie.com", "www.youtube.com", "youtube.googleapis.com",
    "youtubei.googleapis.com"]

def BING_HOSTS : List String := ["edgeservices.bing.com", "www.bing.com"]

def DUCKDUCKGO_HOSTS : List String :=
  ["duckduckgo.com", "start.duckduckgo.com", "www.duckduckgo.com"]

def GOOGLE : Nat := 1
def YOUTUBE : Nat := 2
def BING : Nat := 4
def DUCKDUCKGO : Nat := 8
def ALL : Nat := GOOGLE ||| YOUTUBE ||| BING ||| DUCKDUCKGO

/-- `table.binary_search(&name).is_ok()` over a sorted table. -/
def listed (table : List String) (name : Str) : Bool := table.any fun host => host.toList = name

/-- A compiled rewrite table: one bit for each provider. -/
structure SafeSearch where
  enabled : Nat
deriving Repr, DecidableEq

namespace SafeSearch

def providerBit (provider : Str) : Nat :=
  if provider = "google".toList then GOOGLE
  else if provider = "youtube".toList then YOUTUBE
  else if provider = "bing".toList then BING
  else DUCKDUCKGO

/-- `none` is an unknown provider. -/
def new (enabled : Bool) (providers : List Str) : Option SafeSearch :=
  if !providers.all (listed SUPPORTED_PROVIDERS) then none
  else if !enabled then some { enabled := 0 }
  else if providers.isEmpty then some { enabled := ALL }
  else some { enabled := providers.foldl (fun bits provider => bits ||| providerBit provider) 0 }

def isOn (safesearch : SafeSearch) (bit : Nat) : Bool := safesearch.enabled &&& bit != 0

/-- The target that enforces safe search for a normalized name, if any. -/
def rewrite (safesearch : SafeSearch) (qname : Str) : Option Str :=
  if safesearch.isOn YOUTUBE && listed YOUTUBE_HOSTS qname then
    some "restrictmoderate.youtube.com".toList
  else if safesearch.isOn BING && listed BING_HOSTS qname then some "strict.bing.com".toList
  else if safesearch.isOn DUCKDUCKGO && listed DUCKDUCKGO_HOSTS qname then
    some "safe.duckduckgo.com".toList
  else if safesearch.isOn GOOGLE &&
      (stripPrefix qname "www.google.".toList).any (listed GOOGLE_TLDS) then
    some "forcesafesearch.google.com".toList
  else none

end SafeSearch

end Sumidero.Server
