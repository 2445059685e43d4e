import DiskArray.Cache.Basic
import DiskArray.Text.Percent

/-!
# Hit rates

How many look-ups of the cache were hits, as numbers and as text.
-/

namespace DiskArray.Cache

/-- The hit rate in per cent; there is none before the first look-up. -/
def hitRate (c : Cache) : Option Text.Binary64 := Text.percentage c.hits c.queries

/-- The counts and the rate, on two lines. -/
def statistics (c : Cache) : String :=
  "num_hits: " ++ toString c.hits ++ ", num_queries: " ++ toString c.queries ++ "\nHit rate: " ++
    match c.hitRate with
    | some rate => Text.percentText rate
    | none => "N/A"

end DiskArray.Cache
