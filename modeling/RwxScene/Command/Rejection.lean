/-!
# Rejections

Why a line is no command. A keyword is named in small letters, any other word as it was written.
-/

namespace RwxScene

/-- Why a line is no command. -/
inductive Rejection where
  | unknownKeyword (keyword : String)
  | missingArgument (keyword : String)
  | invalidNumber (word : String)
  | invalidValue (keyword value : String)
  | trailingWord (word : String)
  /-- A polygon has fewer than three corners, or not as many as it says. -/
  | polygonCount (declared found : Nat)
deriving DecidableEq

def Rejection.message : Rejection → String
  | .unknownKeyword k => "Unknown keyword: " ++ k
  | .missingArgument k => "Missing argument for `" ++ k ++ "`"
  | .invalidNumber w => "Invalid number: " ++ w
  | .invalidValue k v => "Invalid value `" ++ v ++ "` for `" ++ k ++ "`"
  | .trailingWord w => "Unexpected trailing token: " ++ w
  | .polygonCount declared found =>
    "Polygon declares " ++ toString declared ++ " vertices but lists " ++ toString found

end RwxScene
