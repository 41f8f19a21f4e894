import RecordCondition.Portfolio.Holding
import RecordCondition.Portfolio.Listing
import RecordCondition.Portfolio.Stock
import RecordCondition.Portfolio.Tagged

/-!
# Sample records

Record types of all kinds with a few records of each, on which conditions can be
tried out.
-/
