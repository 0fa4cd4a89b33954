import TangraAuth.Session.KeptSession
import TangraAuth.Accounts.Activation
import TangraAuth.Accounts.SignIn
import TangraAuth.Accounts.PasswordChange
import TangraAuth.Accounts.ActivePasswords
import TangraAuth.App.Reset
import TangraAuth.Authz.MemberPages
import TangraAuth.Authz.Verify
import TangraAuth.Authz.Verdicts
import TangraAuth.Session.RoleViews
import TangraAuth.Session.RenewalGrace
import TangraAuth.Authz.Grammar
import TangraAuth.Token.Verification
import TangraAuth.Token.RingAgreement
import TangraAuth.Mfa.RecoveryUse
import TangraAuth.Mfa.LastFactor
import TangraAuth.Grpcapi.Introspection
import TangraAuth.Tenant.Create
import TangraAuth.Authz.LastOwner
import TangraAuth.Grpcapi.Enrollment
import TangraAuth.AuthClient.Registration
import TangraAuth.Authz.Escalation
import TangraAuth.OAuth.SingleUse
import TangraAuth.Accounts.Completions
import TangraAuth.Mfa.Replay
import TangraAuth.AuthClient.Offline
import TangraAuth.Audit.Writer
import TangraAuth.Authz.Acceptance
import TangraAuth.Ldapdir.Policy
import TangraAuth.Webauthn.Counters
import TangraAuth.OAuth.Redirects
import TangraAuth.Authz.Backends
import TangraAuth.Authz.EffectiveRoles
import TangraAuth.Ldapdir.Filter
import TangraAuth.Ldapdir.Identifiers
import TangraAuth.Crypto.Envelope
import TangraAuth.Console.Passwords
import TangraAuth.User.Members
import TangraAuth.User.Avatars
