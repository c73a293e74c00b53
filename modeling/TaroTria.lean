import TaroTria.Payments.OrderLifecycle
import TaroTria.Payments.WebhookSignature
import TaroTria.Readings.SubmitOnce
import TaroTria.Wallet.LedgerBalance
import TaroTria.Wallet.RunningBalance
import TaroTria.Transactions.Latch
import TaroTria.Readings.CompletedAbsorbing
import TaroTria.Readings.SubmittedKept
import TaroTria.Auth.AuthService
import TaroTria.Auth.SingleUse
import TaroTria.Auth.MassRevocation
import TaroTria.Rewards.FlashOfferDailyLimit
import TaroTria.Rewards.AdGrantsOnce
import TaroTria.Payments.OneDiscountPerOffer
import TaroTria.Sharing.RevocationCutsAccess
import TaroTria.Payments.Redelivery
import TaroTria.Readings.JobOutcome
import TaroTria.Readings.AnswersFrozen
import TaroTria.Readings.ImageLifecycle
import TaroTria.Ai.PromptVersions
import TaroTria.Services.Reseeding
import TaroTria.Ai.OnePublished
import TaroTria.Ai.ProhibitedContent
import TaroTria.Readings.OwnInterpretation
import TaroTria.Tarot.FairDraw
import TaroTria.Ai.ExecutionRecord
import TaroTria.Readings.FormEnforcement
import TaroTria.Readings.CardOrder
import TaroTria.Backend.Ownership
import TaroTria.Auth.AccountConcealment
import TaroTria.Sharing.PublicDisclosure
import TaroTria.Auth.TokenSingleUse
import TaroTria.Storage.ImageSignatures
import TaroTria.Sharing.RenderedText
import TaroTria.Sharing.ImageLayout
import TaroTria.Ai.PromptTemplates
import TaroTria.Payments.EventIds
import TaroTria.Readings.CleanupProgress
import TaroTria.DailyCard.UnlockLoss
import TaroTria.DailyCard.FreeWindow
import TaroTria.Auth.Registration
import TaroTria.Auth.AccountsInUse
import TaroTria.Readings.StrandedJobs
import TaroTria.Readings.ImageRetention
import TaroTria.Readings.PalmSlots
import TaroTria.Wallet.CreditEscrow
import TaroTria.Admin.DashboardFigures
import TaroTria.Services.CatalogueCache
import TaroTria.Wallet.AdjustmentAudit
import TaroTria.Sharing.ServedImages
import TaroTria.Auth.DeletedAccounts
import TaroTria.DailyCard.OneCardADay
import TaroTria.Payments.SignedCheckouts
import TaroTria.Ai.DraftsInTests
import TaroTria.Ai.SeededTasks
