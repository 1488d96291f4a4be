/-!
# Words

The bounds of whole numbers in words with a sign: from the negated bound up to but not including
the bound.
-/

namespace PreviewDeploy

abbrev int32Bound : Int := 2147483648

abbrev int64Bound : Int := 9223372036854775808

end PreviewDeploy
