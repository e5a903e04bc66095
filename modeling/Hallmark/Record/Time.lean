import Hallmark.Record.Field
import Hallmark.Time.Reader

/-!
# `Hallmark/Record/Time.lean` — times in records
-/

set_option autoImplicit false

namespace Hallmark.Record

open Time (Timestamp)

def ofTime (time : Timestamp) : Json := .text time.toText

def time? (j : Json) : Option Timestamp := (text? j).bind Timestamp.ofText?

end Hallmark.Record
