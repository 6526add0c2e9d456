/-!
# Categories of personal data

A category says what a value is about.  All are protected alike.
-/

namespace TrustBoundary

/-- What a value is about. -/
inductive PiiCategory where
  | email
  | phone
  | address
  | name
  | bankVerificationNumber
  | nationalIdentificationNumber
  | socialSecurityNumber
  | cardNumber
deriving DecidableEq

namespace PiiCategory

/-- The word for a category. -/
def word : PiiCategory → String
  | email => "email"
  | phone => "phone"
  | address => "address"
  | name => "name"
  | bankVerificationNumber => "bvn"
  | nationalIdentificationNumber => "nin"
  | socialSecurityNumber => "ssn"
  | cardNumber => "card_number"

/-- The categories under their words. -/
def named : List (String × PiiCategory) :=
  [email, phone, address, name, bankVerificationNumber, nationalIdentificationNumber,
    socialSecurityNumber, cardNumber].map fun c => (c.word, c)

end PiiCategory

end TrustBoundary
