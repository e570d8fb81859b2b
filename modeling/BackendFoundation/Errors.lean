/-! # Errors

The application errors of `lib/errors.ts` and what a failing call can throw. -/

namespace BackendFoundation.Errors

inductive ErrorCode
  | badRequest | unauthenticated | forbidden | notFound | conflict | rateLimited
  | serviceUnavailable | invalidCsrfToken | internalError
deriving DecidableEq

structure AppError where
  statusCode : Nat
  code : ErrorCode
  message : String
deriving DecidableEq

def badRequest (message : String) : AppError := ⟨400, .badRequest, message⟩

def unauthenticated (message : String) : AppError := ⟨401, .unauthenticated, message⟩

def forbidden (message : String) : AppError := ⟨403, .forbidden, message⟩

def notFound (message : String) : AppError := ⟨404, .notFound, message⟩

def conflict (message : String) : AppError := ⟨409, .conflict, message⟩

def serviceUnavailable (message : String) : AppError := ⟨503, .serviceUnavailable, message⟩

/-- What a call throws: an application error, a known request error of the database client with
its code, another `Error`, or a value that is no `Error`. -/
inductive Thrown
  | app (e : AppError)
  | prisma (code message : String)
  | error (message : String)
  | value
deriving DecidableEq

/-- An error of the database client, with its code. -/
structure DatabaseError where
  code : String
  message : String
deriving DecidableEq

def DatabaseError.thrown (e : DatabaseError) : Thrown := .prisma e.code e.message

/-- The caller is told of a conflict. -/
def Thrown.IsConflict (e : Thrown) : Prop := ∃ message, e = .app (conflict message)

/-- `error instanceof Error ? error.message.slice(0, 2_000) : fallback`. -/
def Thrown.messageOr (fallback : String) : Thrown → String
  | .app e => String.ofList (e.message.toList.take 2000)
  | .prisma _ message => String.ofList (message.toList.take 2000)
  | .error message => String.ofList (message.toList.take 2000)
  | .value => fallback

end BackendFoundation.Errors
